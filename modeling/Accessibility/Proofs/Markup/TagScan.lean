import Accessibility.Proofs.Markup.Heading
import Accessibility.Proofs.Text.Place

/-! # Where opening tags are found

An opening tag can be read at every place where the looked-for name is written behind a bracket, ends there, and is
followed by a closing bracket somewhere. Of the tags that can be read, the search finds those that are met from left to
right: in order, without overlaps, and so that every other one starts inside a tag that is found. -/

namespace Accessibility

open Text (FirstAt slice Cover)

/-! ## Names on a page -/

/-- Whether a text is the looked-for name as a page may write it, in large or small letters. -/
def TagName.Spells : TagName → Text → Prop
  | .literal name, written => written.map Text.loose = name.map Text.loose
  | .heading, written => ∃ h d, written = [h, d] ∧ Text.loose h = 'h' ∧ '1' ≤ d ∧ d ≤ '6'

theorem TagName.take?_eq_some_iff {name : TagName} {t written rest : Text} :
    name.take? t = some (written, rest) ↔ t = written ++ rest ∧ name.Spells written := by
  cases name with
  | literal name => exact Text.take?_eq_some_iff
  | heading =>
      have hletter : Text.loose 'h' = 'h' := by decide
      rw [take?_heading_eq_some_iff]
      simp only [Spells, Text.agrees, hletter, beq_iff_eq, isLevel, Bool.and_eq_true, decide_eq_true_eq]
      constructor
      · rintro ⟨h, d, rfl, rfl, hh, hd⟩
        exact ⟨rfl, h, d, rfl, hh.symm, hd⟩
      · rintro ⟨rfl, h, d, rfl, hh, hd⟩
        exact ⟨h, d, rfl, rfl, hh.symm, hd⟩

/-- The name is written at a place behind a bracket and ends where the looked-for name ends: another character is there,
and that continues no name. -/
structure TagName.WrittenAt (name : TagName) (page : Text) (p : Nat) (written : Text) : Prop where
  bracket : page[p]? = some '<'
  spelled : name.Spells written
  follows : written <+: page.drop (p + 1)
  ends : ∃ c, page[p + 1 + written.length]? = some c ∧ Text.isName c = false

theorem TagName.writtenAt_iff {name : TagName} {page written : Text} {p : Nat} :
    name.WrittenAt page p written ↔ name.Spells written ∧
      ∃ c rest, page.drop p = '<' :: (written ++ c :: rest) ∧ Text.isName c = false := by
  constructor
  · rintro ⟨hbracket, hspelled, ⟨u, hu⟩, c, hc, hname⟩
    have hrest := Text.drop_add_of_drop hu.symm rfl
    rw [Text.drop_eq_cons_iff.mpr ⟨hc, rfl⟩] at hrest
    exact ⟨hspelled, c, _, Text.drop_eq_cons_iff.mpr ⟨hbracket, by rw [← hu, ← hrest]⟩, hname⟩
  · rintro ⟨hspelled, c, rest, hdrop, hname⟩
    obtain ⟨hbracket, hnext⟩ := Text.drop_eq_cons_iff.mp hdrop
    have hrest := Text.drop_add_of_drop hnext rfl
    exact ⟨hbracket, hspelled, ⟨c :: rest, hnext.symm⟩, c, (Text.drop_eq_cons_iff.mp hrest).1, hname⟩

/-! ## Tags on a page -/

namespace Tag

/-- A place where an opening tag can be read: the name is written there, and it is followed by a closing bracket. -/
structure Head (name : TagName) (page : Text) (p : Nat) (written : Text) : Prop extends
    name.WrittenAt page p written where
  closes : ∃ e, p + 1 + written.length ≤ e ∧ page[e]? = some '>'

/-- The tag that is read at a head: everything up to the first closing bracket, with the name in lower case. -/
def ReadAt (name : TagName) (page : Text) (tag : Tag) : Prop :=
  ∃ written e, Head name page tag.start written ∧ FirstAt '>' page tag.start e ∧ tag.stop = e + 1 ∧
    tag.raw = page.slice tag.start tag.stop ∧ tag.name = Text.lower written

/-- The tags that are met on a page from left to right: each is read at its head, they stand in order and do not
overlap, and every head is the start of one of them or lies inside one. -/
def Scan (name : TagName) (page : Text) (tags : List Tag) : Prop :=
  Cover (ReadAt name page) (fun p => ∃ written, Head name page p written) start stop tags

/-- What stands behind the name of a tag that is read, and what stands behind the tag. -/
theorem drop_of_read? {name : TagName} {page : Text} {p : Nat} {o : Opening}
    (h : Opening.read? name (page.drop p) = some o) :
    page.drop (p + 1 + o.written.length) = o.inner ++ '>' :: o.rest ∧ page.drop (p + o.raw.length) = o.rest := by
  obtain ⟨u, hdrop, htake, -, -⟩ := Opening.read?_eq_some_iff.mp h
  refine ⟨Text.drop_add_of_drop ?_ rfl, Text.drop_add_of_drop (Opening.eq_raw_append_of_read? h) rfl⟩
  rw [(Text.drop_eq_cons_iff.mp hdrop).2, TagName.eq_append_of_take? htake]

/-- A head is a place where the search succeeds. -/
theorem head_iff {name : TagName} {page written : Text} {p : Nat} :
    Head name page p written ↔ ∃ o, Opening.read? name (page.drop p) = some o ∧ o.written = written := by
  constructor
  · rintro ⟨hwritten, e, hle, he⟩
    obtain ⟨hspelled, c, rest, hdrop, hname⟩ := TagName.writtenAt_iff.mp hwritten
    have hmem : '>' ∈ c :: rest := by
      have hrest := Text.drop_add_of_drop (Text.drop_eq_cons_iff.mp hdrop).2 rfl
      obtain ⟨n, rfl⟩ := Nat.exists_eq_add_of_le hle
      rw [← hrest]
      exact List.mem_of_getElem? (List.getElem?_drop ▸ he)
    obtain ⟨inner, after, hsplit, hinner⟩ := List.eq_append_cons_of_mem hmem
    refine ⟨⟨written, inner, after⟩, Opening.read?_eq_some_iff.mpr ⟨_, hdrop, ?_, hinner, ?_⟩, rfl⟩
    · exact TagName.take?_eq_some_iff.mpr ⟨by rw [hsplit], hspelled⟩
    · rw [← Opening.head?_any_isName_append inner after, ← hsplit]
      exact hname
  · rintro ⟨o, hread, rfl⟩
    obtain ⟨u, hdrop, htake, -, hhead⟩ := Opening.read?_eq_some_iff.mp hread
    obtain ⟨rfl, hspelled⟩ := TagName.take?_eq_some_iff.mp htake
    have hrest := (drop_of_read? hread).1
    obtain ⟨c, rest, hcons⟩ : ∃ c rest, o.inner ++ '>' :: o.rest = c :: rest :=
      List.exists_cons_of_ne_nil (by simp)
    refine ⟨TagName.writtenAt_iff.mpr ⟨hspelled, c, rest, by rw [hdrop, hcons], ?_⟩,
      p + 1 + o.written.length + o.inner.length, Nat.le_add_right _ _, ?_⟩
    · have hname := Opening.head?_any_isName_append o.inner o.rest
      rw [hcons, hhead] at hname
      exact hname
    · exact (Text.drop_eq_cons_iff.mp (Text.drop_add_of_drop hrest rfl)).1

theorem firstAt_of_read? {name : TagName} (hname : name.IsPlain) {page : Text} {p : Nat} {o : Opening}
    (h : Opening.read? name (page.drop p) = some o) : FirstAt '>' page p (p + o.front.length) := by
  refine Text.firstAt_iff.mpr ⟨o.front, o.rest, ?_, Opening.not_mem_front_of_read? hname h, rfl⟩
  rw [Opening.eq_raw_append_of_read? h, Opening.raw_eq_front_append, List.append_assoc, List.singleton_append]

theorem readAt_iff {name : TagName} (hname : name.IsPlain) {page : Text} {tag : Tag} :
    ReadAt name page tag ↔
      ∃ o, Opening.read? name (page.drop tag.start) = some o ∧ tag.name = o.name ∧ tag.raw = o.raw := by
  have hlength : ∀ o : Opening, o.raw.length = o.front.length + 1 := fun o => List.length_append
  constructor
  · rintro ⟨written, e, hhead, he, hstop, hraw, hlower⟩
    obtain ⟨o, hread, rfl⟩ := head_iff.mp hhead
    obtain rfl := he.unique (firstAt_of_read? hname hread)
    refine ⟨o, hread, hlower, ?_⟩
    rw [hraw]
    exact Text.slice_of_drop (Opening.eq_raw_append_of_read? hread) (by rw [hstop, hlength, Nat.add_assoc])
  · rintro ⟨o, hread, hlower, hraw⟩
    refine ⟨o.written, _, head_iff.mpr ⟨o, hread, rfl⟩, firstAt_of_read? hname hread, ?_, ?_, hlower⟩
    · rw [stop, hraw, hlength, Nat.add_assoc]
    · rw [hraw]
      exact (Text.slice_of_drop (Opening.eq_raw_append_of_read? hread) (by rw [stop, hraw])).symm

theorem ReadAt.unique {name : TagName} (hname : name.IsPlain) {page : Text} {a b : Tag} (ha : ReadAt name page a)
    (hb : ReadAt name page b) (h : a.start = b.start) : a = b := by
  obtain ⟨o, hread, hlower, hraw⟩ := (readAt_iff hname).mp ha
  obtain ⟨o', hread', hlower', hraw'⟩ := (readAt_iff hname).mp hb
  rw [← h] at hread'
  obtain rfl := Option.some.inj (hread.symm.trans hread')
  cases a
  cases b
  simp_all

theorem findAll_scan {name : TagName} (hname : name.IsPlain) (page : Text) : Scan name page (findAll name page) := by
  refine Cover.of_occurrences (recognize_isProper name) (fun _ _ => ⟨rfl, rfl⟩) ?_ ?_
  · intro found hfound
    obtain ⟨o, hread, hlower, hraw⟩ := recognize_eq_some_iff.mp (Text.recognized_of_mem_occurrences hfound)
    exact (readAt_iff hname).mpr ⟨o, hread, hlower, hraw⟩
  · rintro p ⟨written, hhead⟩
    obtain ⟨o, hread, -⟩ := head_iff.mp hhead
    exact ⟨(o.name, o.raw), recognize_eq_some_iff.mpr ⟨o, hread, rfl, rfl⟩⟩

/-- The search finds exactly the opening tags that are met from left to right. -/
theorem tags_from_left_to_right {name : TagName} (hname : name.IsPlain) (page : Text) :
    Scan name page (findAll name page) ∧ ∀ tags, Scan name page tags → tags = findAll name page := by
  refine ⟨findAll_scan hname page, fun tags hscan => ?_⟩
  refine Cover.unique ?_ (fun _ _ ha hb => ha.unique hname hb) hscan (findAll_scan hname page)
  rintro tag ⟨written, -, hhead, -⟩
  exact ⟨written, hhead⟩

/-- A tag inside another one, in whose name the sign of the kelvin stands, and names that go on. -/
theorem tags_from_left_to_right_kelvin :
    (TagName.literal "kbd".toList).IsPlain ∧
      Scan (.literal "kbd".toList) "<kbd <\u212abd><kbds><kbd-x><\u212aBD\n></kbd><kbd".toList
        [⟨"kbd".toList, "<kbd <\u212abd>".toList, 0⟩, ⟨"kbd".toList, "<\u212aBD\n>".toList, 23⟩] := by
  have hname : (TagName.literal "kbd".toList).IsPlain := ⟨by decide, List.all_eq_true.mp (by decide)⟩
  have hfound : findAll (.literal "kbd".toList) "<kbd <\u212abd><kbds><kbd-x><\u212aBD\n></kbd><kbd".toList =
      [⟨"kbd".toList, "<kbd <\u212abd>".toList, 0⟩, ⟨"kbd".toList, "<\u212aBD\n>".toList, 23⟩] := by
    decide +kernel
  exact ⟨hname, hfound ▸ (tags_from_left_to_right hname _).1⟩

end Tag

end Accessibility
