import Accessibility.Proofs.Markup.Attribute
import Accessibility.Proofs.Markup.Opening
import Accessibility.Proofs.Text.Concatenation
import Mathlib.Data.List.Basic

/-! # Pages joined at a seam

A page that ends with the bracket of a tag can be joined with another one that does not begin by closing an element. No
tag, no element and no name of an attribute lies across the seam, so a search of the joined page finds what searches of
its two parts find. -/

namespace Accessibility

open Text (Unaffected lastBefore)

/-- The end of one page and the beginning of another that can be joined. -/
structure Seam (front behind : Text) : Prop where
  closed : front = [] ∨ front.getLast? = some '>'
  opens : ∀ rest ∈ Text.after? '<' behind, rest.head? ≠ some '/'

instance (front behind : Text) : Decidable (Seam front behind) :=
  decidable_of_iff
    ((front = [] ∨ front.getLast? = some '>') ∧ ∀ rest ∈ Text.after? '<' behind, rest.head? ≠ some '/')
    ⟨fun h => ⟨h.1, h.2⟩, fun h => ⟨h.closed, h.opens⟩⟩

/-! ## The last bracket -/

theorem isBlank_bracket : Text.isBlank '>' = false := by
  decide +kernel

theorem isName_bracket : Text.isName '>' = false := by
  decide +kernel

theorem Seam.getLast?_of_append {front behind passed coming : Text} (h : Seam front behind)
    (hsplit : front = passed ++ coming) (hne : coming ≠ []) : coming.getLast? = some '>' := by
  rcases h.closed with hnil | hlast
  · rw [hnil] at hsplit
    exact absurd (List.append_eq_nil_iff.mp hsplit.symm).2 hne
  · rwa [hsplit, List.getLast?_append_of_ne_nil _ hne] at hlast

/-- The bracket before a seam continues no name, so the text behind it begins as any text does. -/
theorem Seam.any_isName_lastBefore {front behind : Text} (h : Seam front behind) :
    (lastBefore none front).any Text.isName = false := by
  rcases List.eq_nil_or_concat' front with rfl | ⟨body, last, rfl⟩
  · rfl
  · have hlast : [last].getLast? = some '>' := h.getLast?_of_append rfl (by simp)
    obtain rfl : last = '>' := by simpa using hlast
    simpa using isName_bracket

/-! ## Opening tags -/

theorem TagName.take?_append {name : TagName} (hname : name.IsPlain) {t : Text} (h : '>' ∈ t) (rest : Text) :
    name.take? (t ++ rest) = (name.take? t).map (Prod.map id (· ++ rest)) := by
  cases name with
  | literal name => exact Text.take?_append_of_mem hname.2 (by decide) (by decide) h rest
  | heading =>
      match t with
      | [] => exact absurd h List.not_mem_nil
      | [c] =>
          obtain rfl : '>' = c := List.mem_singleton.mp h
          have hletter : Text.agrees 'h' '>' = false := by decide +kernel
          cases rest with
          | nil => rfl
          | cons d rest => simp [take?, hletter]
      | a :: d :: u =>
          simp only [List.cons_append, take?]
          split <;> rfl

theorem TagName.mem_rest_of_take? {name : TagName} (hname : name.IsPlain) {t written rest : Text} (h : '>' ∈ t)
    (htake : name.take? t = some (written, rest)) : '>' ∈ rest := by
  rw [eq_append_of_take? htake, List.mem_append] at h
  refine h.resolve_left fun hmem => ?_
  have := isPlain_of_mem_take? hname htake hmem (by decide)
  revert this
  decide

namespace Opening

/-- An opening tag with more text behind it. -/
def followedBy (o : Opening) (more : Text) : Opening :=
  { o with rest := o.rest ++ more }

@[simp] theorem raw_followedBy (o : Opening) (more : Text) : (o.followedBy more).raw = o.raw := rfl

@[simp] theorem name_followedBy (o : Opening) (more : Text) : (o.followedBy more).name = o.name := rfl

/-- A tag is read up to its bracket, whatever follows a text that has one. -/
theorem read?_append {name : TagName} (hname : name.IsPlain) {t : Text} (h : '>' ∈ t) (more : Text) :
    read? name (t ++ more) = (read? name t).map (·.followedBy more) := by
  cases t with
  | nil => exact absurd h List.not_mem_nil
  | cons c t =>
      by_cases hc : c = '<'
      · subst hc
        have hmem : '>' ∈ t := by simpa using h
        simp only [List.cons_append, read?, TagName.take?_append hname hmem]
        cases htake : name.take? t with
        | none => rfl
        | some found =>
            obtain ⟨written, rest⟩ := found
            have hrest : '>' ∈ rest := TagName.mem_rest_of_take? hname hmem htake
            have hhead : (rest ++ more).head? = rest.head? := by
              rw [List.head?_append_of_ne_nil _ (List.ne_nil_of_mem hrest)]
            simp only [Option.map_some, Prod.map_apply, id_eq, hhead, Text.after?_append_of_mem hrest,
              Text.upTo_append_of_mem hrest, Option.map_map]
            split
            · rfl
            · simp only [Option.map_map]
              rfl
      · simp [read?, hc]

end Opening

namespace Tag

theorem recognize_append {name : TagName} (hname : name.IsPlain) (before : Option Char) {t : Text} (h : '>' ∈ t)
    (more : Text) : recognize name before (t ++ more) = recognize name before t := by
  simp only [recognize, Opening.read?_append hname h, Option.map_map]
  rfl

theorem unaffected_recognize {name : TagName} (hname : name.IsPlain) {front behind : Text} (h : Seam front behind) :
    Unaffected (recognize name) none front behind := by
  intro passed coming hsplit hne
  exact recognize_append hname _ (List.mem_of_getLast? (h.getLast?_of_append hsplit hne)) behind

/-- A tag that many characters further on. -/
def shift (n : Nat) (tag : Tag) : Tag :=
  { tag with start := tag.start + n }

@[simp] theorem stop_shift (n : Nat) (tag : Tag) : (tag.shift n).stop = tag.stop + n :=
  Nat.add_right_comm tag.start n tag.raw.length

/-- What is found in a page stays as it is where no place of the page sees what follows. -/
theorem findAll_append_of_unaffected {name : TagName} {front behind : Text}
    (h : Unaffected (recognize name) none front behind) :
    findAll name (front ++ behind) = findAll name front ++ (findAll name behind).map (shift front.length) := by
  have hfinds := Text.occurrences_append (recognize_isProper name) h fun _ => rfl
  simp only [findAll, hfinds, List.map_append, List.map_map]
  rfl

theorem findAll_append {name : TagName} (hname : name.IsPlain) {front behind : Text} (h : Seam front behind) :
    findAll name (front ++ behind) = findAll name front ++ (findAll name behind).map (shift front.length) :=
  findAll_append_of_unaffected (unaffected_recognize hname h)

end Tag

/-! ## Elements -/

namespace Element

theorem closing?_append {name : TagName} (hname : name.IsPlain) {t : Text} (h : '>' ∈ t) (more : Text) :
    closing? name (t ++ more) = closing? name t := by
  match t with
  | [] => exact absurd h List.not_mem_nil
  | [c] =>
      obtain rfl : '>' = c := List.mem_singleton.mp h
      simp [closing?]
  | a :: b :: u =>
      by_cases hab : a = '<' ∧ b = '/'
      · obtain ⟨rfl, rfl⟩ := hab
        have hmem : '>' ∈ u := by simpa using h
        simp only [List.cons_append, closing?, TagName.take?_append hname hmem]
        cases htake : name.take? u with
        | none => rfl
        | some found =>
            obtain ⟨written, rest⟩ := found
            have hrest : '>' ∈ rest := TagName.mem_rest_of_take? hname hmem htake
            obtain ⟨c, v, hblanks⟩ := Text.exists_dropWhile_eq_cons isBlank_bracket hrest
            simp only [Option.map_some, Prod.map_apply, id_eq, Text.takeWhile_append_of_mem isBlank_bracket hrest,
              Text.dropWhile_append_of_mem isBlank_bracket hrest, hblanks]
            by_cases hc : c = '>' <;> simp [hc]
      · simp only [not_and] at hab
        by_cases ha : a = '<'
        · have hb := hab ha
          simp [closing?, hb]
        · simp [closing?, ha]

/-- What stands behind a seam closes no element that is open before it. -/
theorem closing?_behind {front behind : Text} (h : Seam front behind) (name : TagName) :
    closing? name (behind.drop (Text.upTo '<' behind).length) = none := by
  by_cases hmem : '<' ∈ behind
  · obtain ⟨start, rest, rfl, hstart⟩ := List.eq_append_cons_of_mem hmem
    have hhead := h.opens rest (Text.after?_append_cons hstart rest)
    rw [Text.upTo_append_cons hstart, List.drop_left]
    cases rest with
    | nil => rfl
    | cons c rest =>
        have hc : c ≠ '/' := by simpa using hhead
        simp [closing?, hc]
  · rw [Text.upTo_of_not_mem hmem, List.drop_length]
    rfl

theorem recognize_append {name : TagName} (hname : name.IsPlain) (before : Option Char) {front behind : Text}
    (h : Seam front behind) {t : Text} (hlast : t.getLast? = some '>') :
    recognize name before (t ++ behind) = recognize name before t := by
  simp only [recognize, Opening.read?_append hname (List.mem_of_getLast? hlast)]
  cases hread : Opening.read? name t with
  | none => rfl
  | some o =>
      simp only [Option.map_some, Opening.raw_followedBy, Opening.name_followedBy]
      by_cases hopen : '<' ∈ o.rest
      · -- The text of the element ends before the seam, and so does the closing tag, which has the last bracket.
        have hle : (Text.upTo '<' o.rest).length ≤ o.rest.length := (List.takeWhile_prefix _).length_le
        have hbracket : '>' ∈ o.rest.drop (Text.upTo '<' o.rest).length := by
          have hne : o.rest.drop (Text.upTo '<' o.rest).length ≠ [] := by
            intro hnil
            have hall := Text.upTo_append_drop '<' o.rest
            rw [hnil, List.append_nil] at hall
            exact Text.not_mem_upTo '<' o.rest (hall.symm ▸ hopen)
          rw [Opening.eq_raw_append_of_read? hread, ← Text.upTo_append_drop '<' o.rest, ← List.append_assoc,
            List.getLast?_append_of_ne_nil _ hne] at hlast
          exact List.mem_of_getLast? hlast
        simp only [Opening.followedBy, Text.upTo_append_of_mem hopen, List.drop_append_of_le_length hle,
          closing?_append hname hbracket]
      · -- Without a tag before the seam, the text goes on to the first one behind it, and that closes nothing.
        have hwhole := Text.upTo_of_not_mem hopen
        have hnone : closing? name ((o.rest ++ behind).drop (o.rest ++ Text.upTo '<' behind).length) = none := by
          rw [List.length_append, List.drop_length_add_append]
          exact closing?_behind h name
        simp only [Opening.followedBy, Text.upTo_append hopen, hwhole, hnone, List.drop_length]
        rfl

theorem unaffected_recognize {name : TagName} (hname : name.IsPlain) {front behind : Text} (h : Seam front behind) :
    Unaffected (recognize name) none front behind := by
  intro passed coming hsplit hne
  exact recognize_append hname _ h (h.getLast?_of_append hsplit hne)

/-- An element that many characters further on. -/
def shift (n : Nat) (e : Element) : Element :=
  { e with start := e.start + n }

theorem findAll_append {name : TagName} (hname : name.IsPlain) {front behind : Text} (h : Seam front behind) :
    findAll name (front ++ behind) = findAll name front ++ (findAll name behind).map (shift front.length) := by
  have hfinds := Text.occurrences_append (recognize_isProper name) (unaffected_recognize hname h) fun _ => rfl
  simp only [findAll, hfinds, List.map_append, List.map_map]
  rfl

end Element

/-! ## Names of accessibility attributes -/

namespace Attribute

theorem equals?_append {t : Text} (h : '>' ∈ t) (more : Text) :
    equals? (t ++ more) = (equals? t).map (Prod.map id (· ++ more)) := by
  obtain ⟨c, rest, hblanks⟩ := Text.exists_dropWhile_eq_cons isBlank_bracket h
  simp only [equals?, Text.takeWhile_append_of_mem isBlank_bracket h, Text.dropWhile_append_of_mem isBlank_bracket h,
    hblanks]
  by_cases hc : c = '=' <;> simp [hc]

theorem aria_append (before : Option Char) {t : Text} (h : '>' ∈ t) (more : Text) :
    aria before (t ++ more) = aria before t := by
  simp only [aria, Text.take?_append_of_mem ariaFront_isPlain (by decide) (by decide) h]
  cases htake : Text.take? ariaFront t with
  | none => rfl
  | some found =>
      obtain ⟨front, rest⟩ := found
      have hrest : '>' ∈ rest := Text.mem_rest_of_take? ariaFront_isPlain (by decide) (by decide) h htake
      simp only [Option.map_some, Prod.map_apply, id_eq, Text.takeWhile_append_of_mem isName_bracket hrest,
        Text.dropWhile_append_of_mem isName_bracket hrest,
        equals?_append (Text.mem_dropWhile_of_mem isName_bracket hrest), Option.map_map]
      rfl

theorem ariaNames_append {front behind : Text} (h : Seam front behind) :
    ariaNames (front ++ behind) = ariaNames front ++ ariaNames behind := by
  have hunaffected : Unaffected aria none front behind := by
    intro passed coming hsplit hne
    exact aria_append _ (List.mem_of_getLast? (h.getLast?_of_append hsplit hne)) behind
  have hseam : ∀ t, aria (lastBefore none front) t = aria none t := by
    intro t
    simp only [aria, h.any_isName_lastBefore, Option.any_none]
  simp only [ariaNames, Text.occurrences_append aria_isProper hunaffected hseam, List.map_append, List.map_map]
  rfl

end Attribute

/-! ## The three searches -/

/-- The searches for opening tags, for elements and for accessibility attributes distribute over pages that are joined
at a seam: they find what they find in the first page and then what they find in the second, further on by the length
of the first. -/
theorem scans_append {name : TagName} (hname : name.IsPlain) {front behind : Text} (h : Seam front behind) :
    (Tag.findAll name (front ++ behind)).map (fun tag => (tag, tag.stop)) =
        (Tag.findAll name front).map (fun tag => (tag, tag.stop)) ++
          (Tag.findAll name behind).map (fun tag => (tag.shift front.length, tag.stop + front.length)) ∧
      Element.findAll name (front ++ behind) =
        Element.findAll name front ++ (Element.findAll name behind).map (Element.shift front.length) ∧
      Attribute.ariaNames (front ++ behind) = Attribute.ariaNames front ++ Attribute.ariaNames behind := by
  refine ⟨?_, Element.findAll_append hname h, Attribute.ariaNames_append h⟩
  rw [Tag.findAll_append hname h, List.map_append, List.map_map]
  simp only [Function.comp_def, Tag.stop_shift]

/-- A heading that is open at the seam, and a tag that is not closed at the end. -/
theorem scans_append_open_heading :
    ∃ front behind, front = "<h1 <h2>A</h1><p ARIA-BUSY=1><h3>".toList ∧ behind = "B<h4>C</h2><h5 aria-live =".toList ∧
      Seam front behind ∧
      (Tag.findAll .heading (front ++ behind)).map (fun tag => (tag.start, tag.stop)) = [(0, 8), (29, 33), (34, 38)] ∧
      (Element.findAll .heading (front ++ behind)).map (·.start) = [0, 34] ∧
      Attribute.ariaNames (front ++ behind) = ["aria-busy".toList, "aria-live".toList] := by
  have hseam : Seam "<h1 <h2>A</h1><p ARIA-BUSY=1><h3>".toList "B<h4>C</h2><h5 aria-live =".toList := by decide
  obtain ⟨htags, helements, hnames⟩ := scans_append (show TagName.heading.IsPlain from trivial) hseam
  refine ⟨_, _, rfl, rfl, hseam, ?_, ?_, ?_⟩
  · have hplaces := congrArg (List.map fun p : Tag × Nat => (p.1.start, p.2)) htags
    rw [List.map_map] at hplaces
    exact hplaces.trans (by decide +kernel)
  · rw [helements]
    decide +kernel
  · rw [hnames]
    decide +kernel

end Accessibility
