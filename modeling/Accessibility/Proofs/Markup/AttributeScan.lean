import Accessibility.Proofs.Markup.Quoted
import Accessibility.Proofs.Text.Place

/-! # Where quoted attributes are found

A quoted attribute can be read at every place where the looked-for name is written and continues no other name, where an
equals sign and a quote follow it with nothing but blanks between them, and where the same quote stands once more later.
Of these the search finds those that are met from left to right, and the value of each ends at the next quote of its
kind. -/

namespace Accessibility.Attribute

open Text (FirstAt slice Cover)

/-! ## Attributes on a page -/

/-- A place where a quoted attribute can be read: the name begins there and `quote` stands at `q`, for the first time
behind the equals sign. -/
structure Head (name page : Text) (p : Nat) (quote : Char) (q : Nat) : Prop where
  free : p = 0 ∨ ∃ c, page[p - 1]? = some c ∧ Text.isName c = false
  leads : ∃ written gap lead, written.map Text.loose = name.map Text.loose ∧
    (∀ c ∈ gap, Text.isBlank c = true) ∧ (∀ c ∈ lead, Text.isBlank c = true) ∧
    written ++ gap ++ '=' :: lead <+: page.drop p ∧ q = p + (written ++ gap ++ '=' :: lead).length
  isQuote_quote : isQuote quote = true
  opens : page[q]? = some quote
  again : ∃ e, q < e ∧ page[e]? = some quote

/-- What an attribute takes up on a page: the place of its name and the places of its two quotes. -/
structure Span where
  start : Nat
  opening : Nat
  closing : Nat
  deriving Repr, DecidableEq

namespace Span

/-- The place behind the attribute. -/
def stop (s : Span) : Nat :=
  s.closing + 1

/-- What stands between the quotes. -/
def value (page : Text) (s : Span) : Text :=
  page.slice (s.opening + 1) s.closing

end Span

/-- The attribute that is read at a head: it ends with the first quote that is like the one that opens it. -/
def ReadAt (name page : Text) (s : Span) : Prop :=
  ∃ quote, Head name page s.start quote s.opening ∧ FirstAt quote page (s.opening + 1) s.closing

/-- The attributes that are met on a page from left to right: each is read at its head, they stand in order and do not
overlap, and every head is the start of one of them or lies inside one. -/
def Scan (name page : Text) (spans : List Span) : Prop :=
  Cover (ReadAt name page) (fun p => ∃ quote q, Head name page p quote q) Span.start Span.stop spans

/-! ## Heads and written attributes -/

/-- What stands before the opening quote. -/
def Quoted.front (w : Quoted) : Text :=
  w.written ++ w.gap ++ '=' :: w.lead

theorem Quoted.raw_eq_front_append (w : Quoted) : w.raw = w.front ++ w.quote :: (w.value ++ [w.quote]) := by
  simp [raw, front]

theorem Quoted.length_raw (w : Quoted) : w.raw.length = w.front.length + w.value.length + 2 := by
  simp only [raw_eq_front_append, List.length_append, List.length_cons, List.length_nil]
  omega

/-- The search tells from the character before a place whether a name would go on there. -/
theorem any_isName_lastBefore_take {page : Text} {p : Nat} (hp : p < page.length) :
    (Text.lastBefore none (page.take p)).any Text.isName = false ↔
      p = 0 ∨ ∃ c, page[p - 1]? = some c ∧ Text.isName c = false := by
  cases p with
  | zero => simp
  | succ p =>
      have hlt : p < page.length := Nat.lt_of_succ_lt hp
      rw [List.take_succ_eq_append_getElem hlt, Text.lastBefore_append, Nat.add_sub_cancel,
        List.getElem?_eq_getElem hlt]
      simp

theorem drop_of_head {page : Text} {p : Nat} {w : Quoted} {rest : Text} (h : page.drop p = w.raw ++ rest) :
    page.drop (p + w.front.length) = w.quote :: (w.value ++ w.quote :: rest) ∧
      page.drop (p + w.front.length + 1) = w.value ++ w.quote :: rest := by
  have hfront : page.drop p = w.front ++ w.quote :: (w.value ++ w.quote :: rest) := by
    rw [h, w.raw_eq_front_append]
    simp
  have hquote := Text.drop_add_of_drop hfront rfl
  exact ⟨hquote, (Text.drop_eq_cons_iff.mp hquote).2⟩

/-- A head is a place where the search succeeds. -/
theorem head_iff {name page : Text} {p q : Nat} {quote : Char} :
    Head name page p quote q ↔ ∃ w : Quoted, w.IsOf name ∧ w.raw <+: page.drop p ∧
      (Text.lastBefore none (page.take p)).any Text.isName = false ∧ w.quote = quote ∧ q = p + w.front.length := by
  constructor
  · rintro ⟨hfree, ⟨written, gap, lead, hname, hgap, hlead, ⟨rest, hrest⟩, rfl⟩, hquote, hopens, e, hlt, he⟩
    have hp : p < page.length := by
      have hlast := (List.getElem?_eq_some_iff.mp hopens).1
      omega
    have hdrop := Text.drop_add_of_drop hrest.symm rfl
    rw [Text.drop_eq_cons_iff.mpr ⟨hopens, rfl⟩] at hdrop
    have hmem : quote ∈ page.drop (p + (written ++ gap ++ '=' :: lead).length + 1) := by
      obtain ⟨n, rfl⟩ := Nat.exists_eq_add_of_lt hlt
      refine List.mem_of_getElem? (i := n) ?_
      rw [List.getElem?_drop, ← he]
      congr 1
      omega
    obtain ⟨value, behind, hsplit, hvalue⟩ := List.eq_append_cons_of_mem hmem
    refine ⟨⟨written, gap, lead, quote, value⟩, ⟨hname, hgap, hlead, hquote, hvalue⟩, ⟨behind, ?_⟩,
      (any_isName_lastBefore_take hp).mpr hfree, rfl, rfl⟩
    rw [← hrest, ← hdrop, hsplit]
    simp [Quoted.raw]
  · rintro ⟨w, ⟨hname, hgap, hlead, hquote, -⟩, ⟨rest, hrest⟩, hfree, rfl, rfl⟩
    obtain ⟨hopens, hvalue⟩ := drop_of_head hrest.symm
    have hp : p < page.length := by
      have hlength := congrArg List.length hrest
      rw [List.length_append, w.length_raw, List.length_drop] at hlength
      omega
    refine ⟨(any_isName_lastBefore_take hp).mp hfree, ⟨w.written, w.gap, w.lead, hname, hgap, hlead, ?_, rfl⟩, hquote,
      (Text.drop_eq_cons_iff.mp hopens).1, p + w.front.length + 1 + w.value.length, by omega, ?_⟩
    · exact ⟨w.quote :: (w.value ++ w.quote :: rest), by rw [← hrest, w.raw_eq_front_append]; simp [Quoted.front]⟩
    · exact (Text.drop_eq_cons_iff.mp (Text.drop_add_of_drop hvalue rfl)).1

theorem readAt_iff {name page : Text} {s : Span} :
    ReadAt name page s ↔ ∃ w : Quoted, w.IsOf name ∧ w.raw <+: page.drop s.start ∧
      (Text.lastBefore none (page.take s.start)).any Text.isName = false ∧ s.opening = s.start + w.front.length ∧
      s.stop = s.start + w.raw.length ∧ s.value page = w.value := by
  constructor
  · rintro ⟨quote, hhead, hclosing⟩
    obtain ⟨w, hw, ⟨rest, hrest⟩, hfree, rfl, hopening⟩ := head_iff.mp hhead
    have hvalue := (drop_of_head hrest.symm).2
    rw [hopening] at hclosing
    obtain ⟨-, hplace⟩ := Text.firstAt_iff_upTo.mp hclosing
    rw [hvalue, Text.upTo_append_cons hw.quote_not_mem] at hplace
    refine ⟨w, hw, ⟨rest, hrest⟩, hfree, hopening, ?_, ?_⟩
    · rw [Span.stop, hplace, w.length_raw]
      omega
    · rw [Span.value, hopening]
      exact Text.slice_of_drop hvalue hplace
  · rintro ⟨w, hw, ⟨rest, hrest⟩, hfree, hopening, hstop, -⟩
    refine ⟨w.quote, head_iff.mpr ⟨w, hw, ⟨rest, hrest⟩, hfree, rfl, hopening⟩, ?_⟩
    rw [Span.stop, w.length_raw] at hstop
    rw [hopening]
    exact Text.firstAt_iff.mpr ⟨w.value, rest, (drop_of_head hrest.symm).2, hw.quote_not_mem, by omega⟩

/-! ## The search -/

theorem Quoted.IsOf.unique {name : Text} {v w : Quoted} (hv : v.IsOf name) (hw : w.IsOf name) {t : Text}
    {before : Option Char} (hfree : before.any Text.isName = false) (hvt : v.raw <+: t) (hwt : w.raw <+: t) :
    v.value = w.value ∧ v.raw = w.raw := by
  have hread : ∀ u : Quoted, u.IsOf name → u.raw <+: t → valued name before t = some (u.value, u.raw) :=
    fun u hu hut => valued_eq_some_iff.mpr ⟨hfree, u, hu, rfl, rfl, hut⟩
  exact Prod.mk.inj (Option.some.inj ((hread v hv hvt).symm.trans (hread w hw hwt)))

theorem ReadAt.unique {name page : Text} {a b : Span} (ha : ReadAt name page a) (hb : ReadAt name page b)
    (h : a.start = b.start) : a = b := by
  obtain ⟨v, hv, hvpage, hfree, hvopening, hvstop, -⟩ := readAt_iff.mp ha
  obtain ⟨w, hw, hwpage, -, hwopening, hwstop, -⟩ := readAt_iff.mp hb
  rw [← h] at hwpage hwopening hwstop
  obtain ⟨hvalue, hraw⟩ := hv.unique hw hfree hvpage hwpage
  have hlength := congrArg List.length hraw
  have hvalues := congrArg List.length hvalue
  rw [v.length_raw, w.length_raw] at hlength
  rw [Span.stop, v.length_raw] at hvstop
  rw [Span.stop, w.length_raw] at hwstop
  cases a
  cases b
  simp only [Span.mk.injEq] at *
  omega

/-- Where a find stands: its closing quote is its last character, and its value ends there. -/
def Span.ofFind (o : Occurrence Text) : Span where
  start := o.start
  opening := o.stop - (o.value.length + 2)
  closing := o.stop - 1

theorem readAt_ofFind {name page : Text} {o : Occurrence Text} (h : o ∈ Text.occurrences (valued name) page) :
    ReadAt name page (.ofFind o) ∧ (Span.ofFind o).stop = o.stop ∧ (Span.ofFind o).value page = o.value := by
  obtain ⟨hfree, w, hw, hvalue, hraw, hprefix⟩ := valued_eq_some_iff.mp (Text.recognized_of_mem_occurrences h)
  have hlength : o.stop = o.start + w.front.length + w.value.length + 2 := by
    rw [Occurrence.stop, ← hraw, w.length_raw]
    omega
  have hopening : (Span.ofFind o).opening = o.start + w.front.length := by
    simp only [Span.ofFind, ← hvalue]
    omega
  have hstop : (Span.ofFind o).stop = o.stop := by
    simp only [Span.stop, Span.ofFind]
    omega
  obtain ⟨behind, hbehind⟩ := hprefix
  have hdrop : page.drop o.start = w.raw ++ behind := by rw [hraw, hbehind]
  have hread : (Span.ofFind o).value page = w.value := by
    rw [Span.value, hopening]
    refine Text.slice_of_drop (drop_of_head hdrop).2 ?_
    simp only [Span.ofFind]
    omega
  refine ⟨readAt_iff.mpr ⟨w, hw, ⟨behind, hdrop.symm⟩, hfree, hopening, ?_, hread⟩, hstop, hread.trans hvalue⟩
  rw [hstop, Occurrence.stop, ← hraw]
  rfl

/-- The places of all that is found. -/
def spans (name page : Text) : List Span :=
  (Text.occurrences (valued name) page).map Span.ofFind

theorem spans_scan (name page : Text) : Scan name page (spans name page) := by
  refine Cover.of_occurrences (valued_isProper name) (fun o ho => ⟨rfl, (readAt_ofFind ho).2.1⟩)
    (fun o ho => (readAt_ofFind ho).1) ?_
  rintro p ⟨quote, q, hhead⟩
  obtain ⟨w, hw, hprefix, hfree, -, -⟩ := head_iff.mp hhead
  exact ⟨(w.value, w.raw), valued_eq_some_iff.mpr ⟨hfree, w, hw, rfl, rfl, hprefix⟩⟩

theorem values_eq_map_spans (name page : Text) : values name page = (spans name page).map (Span.value page) := by
  rw [values, spans, List.map_map]
  exact List.map_congr_left fun o ho => (readAt_ofFind ho).2.2.symm

/-- A value is found wherever there is a quoted attribute, though it may be the value of another one before it. -/
theorem values_ne_nil_iff {name page : Text} : values name page ≠ [] ↔ ∃ p quote q, Head name page p quote q := by
  rw [values_eq_map_spans, ne_eq, List.map_eq_nil_iff]
  constructor
  · intro hne
    obtain ⟨s, hs⟩ := List.exists_mem_of_ne_nil _ hne
    obtain ⟨quote, hhead, -⟩ := (spans_scan name page).good s hs
    exact ⟨s.start, quote, s.opening, hhead⟩
  · rintro ⟨p, quote, q, hhead⟩
    obtain ⟨s, hs, -⟩ := (spans_scan name page).covers p ⟨quote, q, hhead⟩
    exact List.ne_nil_of_mem hs

theorem ReadAt.quote_not_mem {name page : Text} {s : Span} (h : ReadAt name page s) :
    ∀ quote ∈ page[s.opening]?, quote ∉ s.value page := by
  intro quote hquote
  obtain ⟨w, hw, ⟨rest, hrest⟩, -, hopening, -, hvalue⟩ := readAt_iff.mp h
  have hopens := (Text.drop_eq_cons_iff.mp (drop_of_head hrest.symm).1).1
  rw [← hopening, Option.mem_def.mp hquote] at hopens
  rw [hvalue, Option.some.inj hopens]
  exact hw.quote_not_mem

/-! ## Attributes with any value -/

theorem named_eq_some_iff {name : Text} {before : Option Char} {t value raw : Text} :
    named name before t = some (value, raw) ↔ before.any Text.isName = false ∧ ∃ gap,
      value.map Text.loose = name.map Text.loose ∧ (∀ c ∈ gap, Text.isBlank c = true) ∧
        raw = value ++ (gap ++ ['=']) ∧ raw <+: t := by
  constructor
  · intro h
    unfold named at h
    split at h
    · contradiction
    · rename_i hbefore
      cases htake : Text.take? name t with
      | none => simp [htake] at h
      | some taken =>
          obtain ⟨written, rest⟩ := taken
          simp only [htake] at h
          obtain ⟨⟨equals, after⟩, hequals, hpair⟩ := Option.map_eq_some_iff.mp h
          simp only [Prod.mk.injEq] at hpair
          obtain ⟨rfl, rfl⟩ := hpair
          obtain ⟨rfl, hloose⟩ := Text.take?_eq_some_iff.mp htake
          obtain ⟨gap, hgap, rfl, rfl⟩ := equals?_eq_some_iff.mp hequals
          exact ⟨by simpa using hbefore, gap, hloose, hgap, rfl, after, by simp⟩
  · rintro ⟨hbefore, gap, hloose, hgap, rfl, rest, rfl⟩
    have htake : Text.take? name (value ++ (gap ++ ['=']) ++ rest) = some (value, gap ++ '=' :: rest) :=
      Text.take?_eq_some_iff.mpr ⟨by simp, hloose⟩
    have hequals : equals? (gap ++ '=' :: rest) = some (gap ++ ['='], rest) :=
      equals?_eq_some_iff.mpr ⟨gap, hgap, rfl, rfl⟩
    simp only [named, hbefore, htake, hequals, Bool.false_eq_true, if_false, Option.map_some]

theorem named_isProper (name : Text) : (named name).IsProper := by
  intro before t value raw h
  obtain ⟨-, gap, -, -, rfl, hprefix⟩ := named_eq_some_iff.mp h
  exact ⟨by simp, hprefix⟩

/-- An attribute with a quoted value is one with a value. -/
theorem named_of_valued {name : Text} {before : Option Char} {t : Text} {found : Text × Text}
    (h : valued name before t = some found) : ∃ given, named name before t = some given := by
  obtain ⟨hbefore, w, hw, -, hraw, hprefix⟩ := valued_eq_some_iff.mp (found.eta ▸ h)
  refine ⟨(w.written, w.written ++ (w.gap ++ ['='])), named_eq_some_iff.mpr ⟨hbefore, w.gap, hw.name_eq, hw.gap_blank,
    rfl, List.IsPrefix.trans ?_ (hraw ▸ hprefix)⟩⟩
  exact ⟨w.lead ++ w.quote :: w.value ++ [w.quote], by simp [Quoted.raw]⟩

/-- An attribute is given a value where its name can be read with an equals sign behind it. -/
theorem isGiven_iff {name page : Text} :
    isGiven name page = true ↔ ∃ front rest given, page = front ++ rest ∧
      named name (Text.lastBefore none front) rest = some given := by
  rw [isGiven, Text.first?, List.isSome_head?]
  constructor
  · intro hne
    obtain ⟨o, ho⟩ := List.exists_mem_of_ne_nil _ hne
    obtain ⟨front, rest, hpage, -, hr⟩ := Text.exists_of_mem_occurrences ho
    exact ⟨front, rest, _, hpage, hr⟩
  · rintro ⟨front, rest, given, rfl, hr⟩
    obtain ⟨o, ho, -⟩ := Text.exists_mem_occurrences_of_recognized (named_isProper name) hr
    exact List.ne_nil_of_mem ho

theorem isGiven_of_value? {name page : Text} (h : value? name page ≠ none) : isGiven name page = true := by
  obtain ⟨value, hvalue⟩ := Option.ne_none_iff_exists'.mp h
  obtain ⟨o, ho, -⟩ := Option.map_eq_some_iff.mp hvalue
  obtain ⟨front, rest, hpage, -, hr⟩ := Text.exists_of_mem_occurrences (List.mem_of_head? ho)
  obtain ⟨given, hgiven⟩ := named_of_valued hr
  exact isGiven_iff.mpr ⟨front, rest, given, hpage, hgiven⟩

/-! ## The values found -/

/-- The search finds exactly the values of the quoted attributes that are met from left to right. None of them holds its
own quote, the first is the one that is read where only one is asked for, and an attribute that has a quoted value is
given one. -/
theorem values_from_left_to_right (name page : Text) :
    (∃ found, Scan name page found ∧ (∀ other, Scan name page other → other = found) ∧
      values name page = found.map (Span.value page) ∧
      ∀ s ∈ found, ∀ quote ∈ page[s.opening]?, quote ∉ s.value page) ∧
    value? name page = (values name page).head? ∧ (value? name page ≠ none → isGiven name page = true) := by
  refine ⟨⟨spans name page, spans_scan name page, fun other hscan => ?_, values_eq_map_spans name page, ?_⟩,
    value?_eq_head?_values name page, isGiven_of_value?⟩
  · refine Cover.unique ?_ (fun _ _ ha hb => ha.unique hb) hscan (spans_scan name page)
    rintro s ⟨quote, hhead, -⟩
    exact ⟨quote, s.opening, hhead⟩
  · exact fun s hs => ((spans_scan name page).good s hs).quote_not_mem

/-- An apostrophe that is never closed, a longer name, and quotes that pair up across tags. -/
theorem values_from_left_to_right_across_tags :
    ∃ page, page = "<a alt='x data-alt=\"n\" ALT = \"b>\n<c alt=\"d\">".toList ∧
      values "alt".toList page = ["b>\n<c alt=".toList] ∧ value? "alt".toList page ≠ none ∧
      isGiven "alt".toList page = true := by
  refine ⟨_, rfl, by decide +kernel, by decide +kernel, ?_⟩
  exact (values_from_left_to_right "alt".toList _).2.2 (by decide +kernel)

end Accessibility.Attribute
