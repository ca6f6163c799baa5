import Accessibility.Proofs.Markup.TagScan

/-! # Where elements are found

An element can be read at every place where the looked-for name is written behind a bracket and where, behind the
first closing bracket after it, the next tag is a closing one of a looked-for name. Of these the search finds those
that are met from left to right. -/

namespace Accessibility

open Text (FirstAt slice Cover)

namespace Element

/-! ## Closing tags -/

def closingTag (written blanks : Text) : Text :=
  '<' :: '/' :: written ++ blanks ++ ['>']

theorem closing?_eq_some_iff {name : TagName} {t closing : Text} :
    closing? name t = some closing ↔ ∃ written blanks rest, t = closingTag written blanks ++ rest ∧
      name.Spells written ∧ (∀ b ∈ blanks, Text.isBlank b = true) ∧ closing = closingTag written blanks := by
  constructor
  · intro h
    unfold closing? at h
    split at h
    · rename_i u
      cases htake : name.take? u with
      | none => simp [htake] at h
      | some found =>
          obtain ⟨written, rest⟩ := found
          obtain ⟨rfl, hspelled⟩ := TagName.take?_eq_some_iff.mp htake
          simp only [htake] at h
          split at h
          · rename_i after hafter
            refine ⟨written, rest.takeWhile Text.isBlank, after, ?_, hspelled,
              List.all_eq_true.mp List.all_takeWhile, (Option.some.inj h).symm⟩
            have hrest : rest = rest.takeWhile Text.isBlank ++ '>' :: after := by
              rw [← hafter, List.takeWhile_append_dropWhile]
            simp [closingTag, ← hrest]
          · contradiction
    · contradiction
  · rintro ⟨written, blanks, rest, rfl, hspelled, hblanks, rfl⟩
    have htext : closingTag written blanks ++ rest = '<' :: '/' :: (written ++ (blanks ++ '>' :: rest)) := by
      simp [closingTag]
    have htake := TagName.take?_eq_some_iff.mpr ⟨Eq.refl (written ++ (blanks ++ '>' :: rest)), hspelled⟩
    have hbar : Text.isBlank '>' = false := by decide +kernel
    simp only [htext, closing?, htake, List.takeWhile_append_of_pos hblanks, List.dropWhile_append_of_pos hblanks,
      List.takeWhile_cons, List.dropWhile_cons, hbar, Bool.false_eq_true, if_false, List.append_nil]
    rfl

/-! ## Elements on a page -/

/-- A place where an element can be read. The first closing bracket behind the name is at `e`, the next tag begins at
`c`, and it is the closing tag of a looked-for name, perhaps of another heading. It ends before `q`. -/
structure Head (name : TagName) (page : Text) (p : Nat) (written : Text) (e c q : Nat) : Prop extends
    name.WrittenAt page p written where
  tagEnd : FirstAt '>' page (p + 1 + written.length) e
  textEnd : FirstAt '<' page (e + 1) c
  closing : ∃ closed blanks, name.Spells closed ∧ (∀ b ∈ blanks, Text.isBlank b = true) ∧
    closingTag closed blanks <+: page.drop c ∧ q = c + (closingTag closed blanks).length

/-- The place behind the element. -/
def stop (x : Element) : Nat :=
  x.start + x.raw.length

/-- The element that is read at a head: the opening tag, the text up to the closing tag, and that tag. -/
def ReadAt (name : TagName) (page : Text) (x : Element) : Prop :=
  ∃ written e c q, Head name page x.start written e c q ∧
    x.raw = page.slice x.start q ∧ x.raw = x.openTag ++ x.text ++ page.slice c q ∧
    x.openTag = page.slice x.start (e + 1) ∧ x.text = page.slice (e + 1) c ∧ '<' ∉ x.text ∧
    x.name = Text.lower written

/-- The elements that are met on a page from left to right: each is read at its head, they stand in order and do not
overlap, and every head is the start of one of them or lies inside one. -/
def Scan (name : TagName) (page : Text) (elements : List Element) : Prop :=
  Cover (ReadAt name page) (fun p => ∃ written e c q, Head name page p written e c q) start stop elements

theorem tagEnd_iff {name : TagName} {page : Text} {p e : Nat} {o : Opening}
    (h : Opening.read? name (page.drop p) = some o) :
    FirstAt '>' page (p + 1 + o.written.length) e ↔ e + 1 = p + o.raw.length := by
  obtain ⟨-, -, -, hinner, -⟩ := Opening.read?_eq_some_iff.mp h
  have hlength : o.raw.length = o.written.length + o.inner.length + 2 := by
    simp only [Opening.raw, List.length_append, List.length_cons, List.length_nil]
    omega
  rw [Text.firstAt_iff_upTo, (Tag.drop_of_read? h).1, Text.upTo_append_cons hinner]
  constructor
  · rintro ⟨-, rfl⟩
    omega
  · intro he
    exact ⟨by simp, by omega⟩

/-- A head is a place where the search succeeds. -/
theorem head_iff {name : TagName} {page written : Text} {p e c q : Nat} :
    Head name page p written e c q ↔
      ∃ o closing, Opening.read? name (page.drop p) = some o ∧
        closing? name (o.rest.drop (Text.upTo '<' o.rest).length) = some closing ∧
        o.written = written ∧ e + 1 = p + o.raw.length ∧ c = e + 1 + (Text.upTo '<' o.rest).length ∧
        q = c + closing.length := by
  constructor
  · rintro ⟨hwritten, htag, htext, closed, blanks, hspelled, hblanks, ⟨rest, hclosing⟩, rfl⟩
    obtain ⟨o, hread, rfl⟩ := Tag.head_iff.mp ⟨hwritten, e, htag.le, htag.here⟩
    have he : e + 1 = p + o.raw.length := tagEnd_iff hread |>.mp htag
    have hrest : page.drop (e + 1) = o.rest := he ▸ (Tag.drop_of_read? hread).2
    obtain ⟨-, hc⟩ := Text.firstAt_iff_upTo.mp htext
    rw [hrest] at hc
    refine ⟨o, closingTag closed blanks, hread, ?_, rfl, he, hc, rfl⟩
    refine closing?_eq_some_iff.mpr ⟨closed, blanks, rest, ?_, hspelled, hblanks, rfl⟩
    rw [hclosing, hc, ← List.drop_drop, hrest]
  · rintro ⟨o, closing, hread, hclosing, rfl, he, rfl, rfl⟩
    obtain ⟨closed, blanks, rest, hdrop, hspelled, hblanks, rfl⟩ := closing?_eq_some_iff.mp hclosing
    have hrest : page.drop (e + 1) = o.rest := he ▸ (Tag.drop_of_read? hread).2
    have hmem : '<' ∈ o.rest := by
      rw [← Text.upTo_append_drop '<' o.rest, hdrop]
      simp [closingTag]
    refine ⟨(Tag.head_iff.mpr ⟨o, hread, rfl⟩).toWrittenAt, (tagEnd_iff hread).mpr he, ?_, closed, blanks, hspelled,
      hblanks, ⟨rest, ?_⟩, rfl⟩
    · exact Text.firstAt_iff_upTo.mpr (by rw [hrest]; exact ⟨hmem, rfl⟩)
    · rw [← hdrop, ← List.drop_drop, hrest]

theorem slices_of_read? {name : TagName} {page closing : Text} {p e c q : Nat} {o : Opening}
    (hread : Opening.read? name (page.drop p) = some o)
    (hclosing : closing? name (o.rest.drop (Text.upTo '<' o.rest).length) = some closing)
    (he : e + 1 = p + o.raw.length) (hc : c = e + 1 + (Text.upTo '<' o.rest).length) (hq : q = c + closing.length) :
    page.slice p (e + 1) = o.raw ∧ page.slice (e + 1) c = Text.upTo '<' o.rest ∧ page.slice c q = closing ∧
      page.slice p q = o.raw ++ Text.upTo '<' o.rest ++ closing := by
  obtain ⟨rest, hrest⟩ := (closing?_eq_some hclosing).1
  have htag : page.drop p = o.raw ++ o.rest := Opening.eq_raw_append_of_read? hread
  have htext : page.drop (e + 1) = Text.upTo '<' o.rest ++ (closing ++ rest) := by
    rw [Text.drop_add_of_drop htag he, hrest, Text.upTo_append_drop]
  have hwhole : page.drop p = o.raw ++ Text.upTo '<' o.rest ++ closing ++ rest := by
    rw [List.append_assoc, List.append_assoc, hrest, Text.upTo_append_drop, htag]
  refine ⟨Text.slice_of_drop htag he, Text.slice_of_drop htext hc,
    Text.slice_of_drop (Text.drop_add_of_drop htext hc) hq, Text.slice_of_drop hwhole ?_⟩
  simp only [List.length_append]
  omega

theorem readAt_iff {name : TagName} {page : Text} {x : Element} :
    ReadAt name page x ↔
      ∃ o closing, Opening.read? name (page.drop x.start) = some o ∧
        closing? name (o.rest.drop (Text.upTo '<' o.rest).length) = some closing ∧
        x.name = o.name ∧ x.openTag = o.raw ∧ x.text = Text.upTo '<' o.rest ∧
        x.raw = o.raw ++ Text.upTo '<' o.rest ++ closing := by
  constructor
  · rintro ⟨written, e, c, q, hhead, -, hraw, htag, htext, -, hname⟩
    obtain ⟨o, closing, hread, hclosing, rfl, he, hc, hq⟩ := head_iff.mp hhead
    obtain ⟨hopening, hinner, hend, -⟩ := slices_of_read? hread hclosing he hc hq
    refine ⟨o, closing, hread, hclosing, hname, htag.trans hopening, htext.trans hinner, ?_⟩
    rw [hraw, htag, htext, hopening, hinner, hend]
  · rintro ⟨o, closing, hread, hclosing, hname, htag, htext, hraw⟩
    have he : x.start + o.front.length + 1 = x.start + o.raw.length := by
      rw [Opening.raw_eq_front_append, List.length_append, Nat.add_assoc]
      rfl
    obtain ⟨hopening, hinner, hend, hwhole⟩ := slices_of_read? hread hclosing he rfl rfl
    refine ⟨o.written, _, _, _, head_iff.mpr ⟨o, closing, hread, hclosing, rfl, he, rfl, rfl⟩,
      hraw.trans hwhole.symm, ?_, htag.trans hopening.symm, htext.trans hinner.symm, ?_, hname⟩
    · rw [hraw, htag, htext, hend]
    · rw [htext]
      exact Text.not_mem_upTo '<' o.rest

/-! ## The search -/

theorem ReadAt.unique {name : TagName} {page : Text} {a b : Element} (ha : ReadAt name page a)
    (hb : ReadAt name page b) (h : a.start = b.start) : a = b := by
  obtain ⟨o, closing, hread, hclosing, hparts⟩ := readAt_iff.mp ha
  obtain ⟨o', closing', hread', hclosing', hparts'⟩ := readAt_iff.mp hb
  rw [← h] at hread'
  obtain rfl := Option.some.inj (hread.symm.trans hread')
  obtain rfl := Option.some.inj (hclosing.symm.trans hclosing')
  cases a
  cases b
  simp_all

theorem findAll_scan (name : TagName) (page : Text) : Scan name page (findAll name page) := by
  refine Cover.of_occurrences (recognize_isProper name) (fun _ _ => ⟨rfl, rfl⟩) ?_ ?_
  · intro found hfound
    obtain ⟨o, closing, hread, hclosing, hparts, hraw⟩ :=
      recognize_eq_some_iff.mp (Text.recognized_of_mem_occurrences hfound)
    exact readAt_iff.mpr ⟨o, closing, hread, hclosing, by rw [hparts], by rw [hparts], by rw [hparts], hraw⟩
  · rintro p ⟨written, e, c, q, hhead⟩
    obtain ⟨o, closing, hread, hclosing, -⟩ := head_iff.mp hhead
    exact ⟨(_, _), recognize_eq_some_iff.mpr ⟨o, closing, hread, hclosing, rfl, rfl⟩⟩

theorem level?_eq_some_iff {x : Element} {n : Nat} :
    x.level? = some n ↔ 1 ≤ n ∧ n ≤ 6 ∧ x.name = ['h', Nat.digitChar n] := by
  unfold level?
  constructor
  · intro h
    unfold headingLevel? at h
    split at h
    · rename_i d hname
      split at h
      · rename_i hlevel
        obtain rfl : d.toNat - 48 = n := Option.some.inj h
        have hrange := TagName.isLevel_iff.mp hlevel
        have hdigit : Nat.digitChar (d.toNat - 48) = d := by
          apply Char.toNat_inj.mp
          rw [Nat.toNat_digitChar_of_lt_ten (by omega)]
          omega
        exact ⟨by omega, by omega, by rw [hname, hdigit]⟩
      · contradiction
    · contradiction
  · rintro ⟨hlow, hhigh, hname⟩
    have hall : ∀ n < 7, 1 ≤ n → headingLevel? ['h', Nat.digitChar n] = some n := by decide
    rw [hname]
    exact hall n (Nat.lt_succ_of_le hhigh) hlow

/-- The search finds exactly the plain-text elements that are met from left to right, and those of headings have the
level that their name says. -/
theorem elements_from_left_to_right (name : TagName) (page : Text) :
    Scan name page (findAll name page) ∧ (∀ elements, Scan name page elements → elements = findAll name page) ∧
      ∀ x ∈ findAll name page, ∀ n, x.level? = some n ↔ 1 ≤ n ∧ n ≤ 6 ∧ x.name = ['h', Nat.digitChar n] := by
  refine ⟨findAll_scan name page, fun elements hscan => ?_, fun x _ n => level?_eq_some_iff⟩
  refine Cover.unique ?_ (fun _ _ ha hb => ha.unique hb) hscan (findAll_scan name page)
  rintro x ⟨written, e, c, q, hhead, -⟩
  exact ⟨written, e, c, q, hhead⟩

/-- A heading that another one interrupts is passed over, and the other one is closed under a third name. -/
example : (findAll .heading "<h2>A<H1 <h4>B</h3 ></h2>".toList).map (fun x => (x.start, x.stop, x.level?)) =
    [(5, 20, some 1)] := by
  decide +kernel

end Element

end Accessibility
