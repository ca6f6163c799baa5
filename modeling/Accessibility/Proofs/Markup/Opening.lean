import Accessibility.Markup.Element
import Accessibility.Proofs.Text.Ascii
import Accessibility.Proofs.Text.Occurrences

/-! # Reading tags and elements

An opening tag at the front of a text is a `<`, the name, and everything up to the first `>`. The name must not go on
behind the looked-for name. An element is such a tag with plain text and a closing tag behind it. -/

namespace Accessibility

/-- A name that can be looked for: any heading, or a nonempty name of ASCII letters, digits and hyphens. -/
def TagName.IsPlain : TagName → Prop
  | .literal name => name ≠ [] ∧ ∀ c ∈ name, Text.isPlain c = true
  | .heading => True

-- The letters are named as the list to search: the search for an instance may settle on one that runs over all
-- characters.
instance : DecidablePred TagName.IsPlain
  | .literal name => @instDecidableAnd _ _ instDecidableNot (List.decidableBAll _ name)
  | .heading => isTrue trivial

/-- The names that the checks look for. -/
def TagName.all : List TagName :=
  [img, input, label, button, track, heading]

theorem TagName.isPlain_all : ∀ name ∈ all, name.IsPlain := by
  decide

/-! ## Names -/

theorem TagName.take?_heading_eq_some_iff {t written rest : Text} :
    TagName.heading.take? t = some (written, rest) ↔
      ∃ h d, t = h :: d :: rest ∧ written = [h, d] ∧ Text.agrees 'h' h = true ∧ isLevel d = true := by
  constructor
  · intro h
    unfold TagName.take? at h
    split at h
    · simp_all
    · rename_i a d u heq
      split at h
      · rename_i hname
        rw [Bool.and_eq_true] at hname
        simp only [Option.some.injEq, Prod.mk.injEq] at h
        obtain ⟨rfl, rfl⟩ := h
        exact ⟨a, d, rfl, rfl, hname.1, hname.2⟩
      · simp at h
    · simp at h
  · rintro ⟨a, d, rfl, rfl, ha, hd⟩
    simp [TagName.take?, ha, hd]

theorem TagName.eq_append_of_take? {name : TagName} {t written rest : Text} (h : name.take? t = some (written, rest)) :
    t = written ++ rest := by
  cases name with
  | literal name => exact (Text.take?_eq_some_iff.mp h).1
  | heading =>
      obtain ⟨a, d, rfl, rfl, -, -⟩ := take?_heading_eq_some_iff.mp h
      rfl

/-- A name as written holds no ASCII characters but plain ones, hence no bracket. -/
theorem TagName.isPlain_of_mem_take? {name : TagName} (hname : name.IsPlain) {t written rest : Text}
    (h : name.take? t = some (written, rest)) {c : Char} (hc : c ∈ written) (hascii : c.toNat < 128) :
    Text.isPlain c = true := by
  cases name with
  | literal name => exact Text.isPlain_of_mem_take? hname.2 h hc hascii
  | heading =>
      obtain ⟨a, d, -, rfl, ha, hd⟩ := take?_heading_eq_some_iff.mp h
      rw [Text.agrees, beq_iff_eq] at ha
      simp only [List.mem_cons, List.not_mem_nil, or_false] at hc
      rcases hc with rfl | rfl
      · exact Text.isPlain_of_loose_eq (a := 'h') (by decide) hascii ha.symm
      · exact Text.of_ascii (p := fun c => isLevel c = true → Text.isPlain c = true) (by decide) hascii hd

/-! ## Opening tags -/

namespace Opening

/-- A bracket does not continue a name, so only the inside of a tag can. -/
theorem head?_any_isName_append (inner rest : Text) :
    (inner ++ '>' :: rest).head?.any Text.isName = inner.head?.any Text.isName := by
  cases inner with
  | nil => exact (by decide : Text.isName '>' = false)
  | cons c inner => rfl

theorem read?_eq_some_iff {name : TagName} {t : Text} {o : Opening} :
    read? name t = some o ↔
      ∃ u, t = '<' :: u ∧ name.take? u = some (o.written, o.inner ++ '>' :: o.rest) ∧ '>' ∉ o.inner ∧
        o.inner.head?.any Text.isName = false := by
  constructor
  · intro h
    unfold read? at h
    split at h
    · rename_i u
      cases htake : name.take? u with
      | none => simp [htake] at h
      | some found =>
          obtain ⟨written, rest⟩ := found
          simp only [htake] at h
          split at h
          · simp at h
          · rename_i hhead
            obtain ⟨after, hafter, rfl⟩ := Option.map_eq_some_iff.mp h
            have hrest := Text.eq_upTo_of_after? hafter
            refine ⟨u, rfl, ?_, Text.not_mem_upTo '>' rest, ?_⟩
            · rw [← hrest, htake]
            · rw [hrest, head?_any_isName_append] at hhead
              simpa using hhead
    · simp at h
  · rintro ⟨u, rfl, htake, hinner, hhead⟩
    rw [← head?_any_isName_append o.inner o.rest] at hhead
    simp only [read?, htake, hhead, Bool.false_eq_true, if_false, Text.after?_append_cons hinner,
      Text.upTo_append_cons hinner, Option.map_some]

/-- An opening tag that is read stands at the front of the text. -/
theorem eq_raw_append_of_read? {name : TagName} {t : Text} {o : Opening} (h : read? name t = some o) :
    t = o.raw ++ o.rest := by
  obtain ⟨u, rfl, htake, -, -⟩ := read?_eq_some_iff.mp h
  rw [TagName.eq_append_of_take? htake]
  simp [raw]

/-- A tag up to its closing bracket. -/
def front (o : Opening) : Text :=
  '<' :: o.written ++ o.inner

theorem raw_eq_front_append (o : Opening) : o.raw = o.front ++ ['>'] := rfl

theorem not_mem_front_of_read? {name : TagName} (hname : name.IsPlain) {t : Text} {o : Opening}
    (h : read? name t = some o) : '>' ∉ o.front := by
  obtain ⟨u, rfl, htake, hinner, -⟩ := read?_eq_some_iff.mp h
  simp only [front, List.cons_append, List.mem_cons, List.mem_append, not_or]
  refine ⟨by decide, fun hwritten => ?_, hinner⟩
  have := TagName.isPlain_of_mem_take? hname htake hwritten (by decide)
  revert this
  decide

end Opening

namespace Tag

theorem recognize_eq_some_iff {name : TagName} {before : Option Char} {t value raw : Text} :
    recognize name before t = some (value, raw) ↔
      ∃ o, Opening.read? name t = some o ∧ value = o.name ∧ raw = o.raw := by
  simp only [recognize, Option.map_eq_some_iff, Prod.mk.injEq]
  constructor
  · rintro ⟨o, ho, rfl, rfl⟩
    exact ⟨o, ho, rfl, rfl⟩
  · rintro ⟨o, ho, rfl, rfl⟩
    exact ⟨o, ho, rfl, rfl⟩

theorem recognize_isProper (name : TagName) : (recognize name).IsProper := by
  intro before t value raw h
  obtain ⟨o, ho, -, rfl⟩ := recognize_eq_some_iff.mp h
  exact ⟨by simp [Opening.raw], o.rest, (Opening.eq_raw_append_of_read? ho).symm⟩

end Tag

/-! ## Elements -/

namespace Element

theorem closing?_eq_some {name : TagName} {t closing : Text} (h : closing? name t = some closing) :
    closing <+: t ∧ closing.getLast? = some '>' := by
  unfold closing? at h
  split at h
  · rename_i u
    cases htake : name.take? u with
    | none => simp [htake] at h
    | some found =>
        obtain ⟨written, rest⟩ := found
        simp only [htake] at h
        split at h
        · rename_i v hv
          obtain rfl := Option.some.inj h
          refine ⟨⟨v, ?_⟩, List.getLast?_concat⟩
          have hrest : rest = rest.takeWhile Text.isBlank ++ '>' :: v := by
            rw [← hv, List.takeWhile_append_dropWhile]
          rw [TagName.eq_append_of_take? htake]
          simp [← hrest]
        · simp at h
  · simp at h

theorem recognize_eq_some_iff {name : TagName} {before : Option Char} {t : Text} {parts : Parts} {raw : Text} :
    recognize name before t = some (parts, raw) ↔
      ∃ o closing, Opening.read? name t = some o ∧
        closing? name (o.rest.drop (Text.upTo '<' o.rest).length) = some closing ∧
        parts = { name := o.name, openTag := o.raw, text := Text.upTo '<' o.rest } ∧
        raw = o.raw ++ Text.upTo '<' o.rest ++ closing := by
  unfold recognize
  cases hread : Opening.read? name t with
  | none => simp
  | some o =>
      simp only [Option.map_eq_some_iff, Prod.mk.injEq, Option.some.injEq]
      constructor
      · rintro ⟨closing, hclosing, rfl, rfl⟩
        exact ⟨o, closing, rfl, hclosing, rfl, rfl⟩
      · rintro ⟨_, closing, rfl, hclosing, rfl, rfl⟩
        exact ⟨closing, hclosing, rfl, rfl⟩

theorem recognize_isProper (name : TagName) : (recognize name).IsProper := by
  intro before t parts raw h
  obtain ⟨o, closing, hread, hclosing, -, rfl⟩ := recognize_eq_some_iff.mp h
  refine ⟨by simp [Opening.raw], ?_⟩
  obtain ⟨⟨rest, hrest⟩, -⟩ := closing?_eq_some hclosing
  refine ⟨rest, ?_⟩
  rw [Opening.eq_raw_append_of_read? hread, List.append_assoc, List.append_assoc, hrest, Text.upTo_append_drop]

/-- The closing tag ends every element with a bracket. -/
theorem getLast?_raw_of_recognize {name : TagName} {before : Option Char} {t : Text} {parts : Parts} {raw : Text}
    (h : recognize name before t = some (parts, raw)) : raw.getLast? = some '>' := by
  obtain ⟨o, closing, -, hclosing, -, rfl⟩ := recognize_eq_some_iff.mp h
  rw [List.getLast?_append, (closing?_eq_some hclosing).2]
  rfl

end Element

end Accessibility
