import Accessibility.Proofs.Markup.Embedding

/-! # Levels of headings

Whatever is found under the name of a heading has a level from one to six, so that no outline misses a level. -/

namespace Accessibility

namespace Text

theorem eq_of_loose_eq_h {c : Char} (h : loose c = 'h') : c = 'H' ∨ c = 'h' := by
  unfold loose at h
  split at h
  · rename_i hcapital
    have hascii : c.toNat < 128 := Nat.lt_of_le_of_lt (UInt32.le_iff_toNat_le.mp hcapital.2) (by decide)
    have hloose : loose c = 'h' := by rw [loose, if_pos hcapital, h]
    revert hloose
    exact of_ascii (p := fun c => loose c = 'h' → c = 'H' ∨ c = 'h') (by decide) hascii
  · split at h
    · simp at h
    · split at h
      · simp at h
      · split at h
        · simp at h
        · exact Or.inr h

end Text

theorem TagName.isLevel_iff {d : Char} : isLevel d = true ↔ 49 ≤ d.toNat ∧ d.toNat ≤ 54 := by
  simp only [isLevel, Bool.and_eq_true, decide_eq_true_eq]
  exact and_congr UInt32.le_iff_toNat_le UInt32.le_iff_toNat_le

/-- The name of a heading that is read is a small h with the digit of its level. -/
theorem Opening.level_of_read?_heading {t : Text} {o : Opening} (h : read? .heading t = some o) :
    ∃ level, headingLevel? o.name = some level ∧ 1 ≤ level ∧ level ≤ 6 := by
  obtain ⟨u, -, htake, -, -⟩ := read?_eq_some_iff.mp h
  obtain ⟨a, d, -, hwritten, ha, hd⟩ := TagName.take?_heading_eq_some_iff.mp htake
  rw [Text.agrees, beq_iff_eq] at ha
  have hletter := Text.eq_of_loose_eq_h (ha.symm.trans (by decide : Text.loose 'h' = 'h'))
  have hrange := TagName.isLevel_iff.mp hd
  have hdigit : Text.isPlain d = true ∧ d.toLower = d :=
    Text.of_ascii (p := fun d => TagName.isLevel d = true → Text.isPlain d = true ∧ d.toLower = d)
      (by decide) (Nat.lt_of_le_of_lt hrange.2 (by decide)) hd
  have hname : o.name = ['h', d] := by
    have hplain : ∀ c ∈ [a, d], Text.isPlain c = true := by
      rcases hletter with rfl | rfl <;> simp [hdigit.1] <;> decide
    rw [name, hwritten, Text.lower_of_isPlain hplain]
    rcases hletter with rfl | rfl <;> simp [hdigit.2]
  refine ⟨d.toNat - '0'.toNat, ?_, ?_, ?_⟩
  · simp [headingLevel?, hname, hd]
  · change 1 ≤ d.toNat - 48
    omega
  · change d.toNat - 48 ≤ 6
    omega

theorem Tag.exists_of_mem_findAll {name : TagName} {page : Text} {tag : Tag} (h : tag ∈ Tag.findAll name page) :
    ∃ front rest o, page = front ++ rest ∧ tag.start = front.length ∧ Opening.read? name rest = some o ∧
      tag.name = o.name ∧ tag.raw = o.raw := by
  obtain ⟨found, hfound, rfl⟩ := List.mem_map.mp h
  obtain ⟨front, rest, hpage, hstart, hr⟩ := Text.exists_of_mem_occurrences hfound
  obtain ⟨o, hread, hvalue, hraw⟩ := Tag.recognize_eq_some_iff.mp hr
  exact ⟨front, rest, o, hpage, hstart, hread, hvalue, hraw⟩

theorem Tag.level_of_mem_findAll {page : Text} {tag : Tag} (h : tag ∈ Tag.findAll .heading page) :
    ∃ level, tag.level? = some level ∧ 1 ≤ level ∧ level ≤ 6 := by
  obtain ⟨front, rest, o, -, -, hread, hname, -⟩ := Tag.exists_of_mem_findAll h
  rw [Tag.level?, hname]
  exact Opening.level_of_read?_heading hread

theorem Element.level_of_mem_findAll {page : Text} {e : Element} (h : e ∈ Element.findAll .heading page) :
    ∃ level, e.level? = some level ∧ 1 ≤ level ∧ level ≤ 6 :=
  Tag.level_of_mem_findAll (Element.opening_mem (show TagName.heading.IsPlain from trivial) h).1

end Accessibility
