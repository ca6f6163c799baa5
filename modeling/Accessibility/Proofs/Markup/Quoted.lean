import Accessibility.Proofs.Markup.Attribute
import Accessibility.Proofs.Markup.Opening
import Accessibility.Proofs.Text.Blank
import Accessibility.Proofs.Text.Concatenation

/-! # Quoted attributes inside a page

The scan of a page and the scan of one of its tags may pair quotes differently. An attribute that is read at a place is
passed over only where an earlier one covers the place, and then it begins inside the earlier value, which therefore
holds its equals sign. Where no value holds one, everything that is read anywhere is found. -/

namespace Accessibility.Attribute

/-! ## Attributes as written -/

/-- An attribute as it is written: its name, blanks, an equals sign, blanks, and a value in quotes. -/
structure Quoted where
  written : Text
  gap : Text
  lead : Text
  quote : Char
  value : Text

namespace Quoted

def raw (q : Quoted) : Text :=
  q.written ++ q.gap ++ '=' :: q.lead ++ q.quote :: q.value ++ [q.quote]

/-- The attribute is written as one of the name can be. -/
structure IsOf (q : Quoted) (name : Text) : Prop where
  name_eq : q.written.map Text.loose = name.map Text.loose
  gap_blank : ∀ c ∈ q.gap, Text.isBlank c = true
  lead_blank : ∀ c ∈ q.lead, Text.isBlank c = true
  isQuote_quote : isQuote q.quote = true
  quote_not_mem : q.quote ∉ q.value

end Quoted

theorem isQuote_spec {c : Char} (h : isQuote c = true) : Text.IsSign c ∧ c ≠ '=' := by
  rw [isQuote, Bool.or_eq_true, beq_iff_eq, beq_iff_eq] at h
  rcases h with rfl | rfl <;> decide

theorem isPlain_loose_of_isQuote {c : Char} (h : isQuote c = true) : Text.isPlain (Text.loose c) = false := by
  obtain ⟨hsign, -⟩ := isQuote_spec h
  rw [Text.isPlain_loose hsign.ascii, hsign.not_plain]

theorem quotedValue?_eq_some_iff {t value quoted : Text} :
    quotedValue? t = some (value, quoted) ↔
      ∃ lead quote, (∀ c ∈ lead, Text.isBlank c = true) ∧ isQuote quote = true ∧ quote ∉ value ∧
        quoted = lead ++ quote :: value ++ [quote] ∧ quoted <+: t := by
  constructor
  · intro h
    unfold quotedValue? at h
    split at h
    · rename_i quote rest hrest
      split at h
      · rename_i hquote
        obtain ⟨behind, hbehind, hpair⟩ := Option.map_eq_some_iff.mp h
        simp only [Prod.mk.injEq] at hpair
        obtain ⟨rfl, rfl⟩ := hpair
        refine ⟨t.takeWhile Text.isBlank, quote, List.all_eq_true.mp List.all_takeWhile, hquote,
          Text.not_mem_upTo quote rest, rfl, behind, ?_⟩
        have hsplit : t.takeWhile Text.isBlank ++ quote :: rest = t := by
          rw [← hrest, List.takeWhile_append_dropWhile]
        rw [Text.eq_upTo_of_after? hbehind] at hsplit
        simpa using hsplit
      · simp at h
    · simp at h
  · rintro ⟨lead, quote, hlead, hquote, hvalue, rfl, rest, rfl⟩
    have hblank : ¬Text.isBlank quote = true := by simp [(isQuote_spec hquote).1.not_blank]
    have htext : lead ++ quote :: value ++ [quote] ++ rest = lead ++ quote :: (value ++ quote :: rest) := by simp
    rw [htext, quotedValue?, List.dropWhile_append_of_pos hlead, List.dropWhile_cons_of_neg hblank,
      List.takeWhile_append_of_pos hlead, List.takeWhile_cons_of_neg hblank, List.append_nil]
    simp only [hquote, if_true, Text.after?_append_cons hvalue, Text.upTo_append_cons hvalue, Option.map_some]

/-- An attribute is read exactly where one is written that does not continue a name. -/
theorem valued_eq_some_iff {name : Text} {before : Option Char} {t value raw : Text} :
    valued name before t = some (value, raw) ↔
      before.any Text.isName = false ∧ ∃ q : Quoted, q.IsOf name ∧ q.value = value ∧ q.raw = raw ∧ raw <+: t := by
  constructor
  · intro h
    unfold valued at h
    split at h
    · simp at h
    · rename_i hbefore
      refine ⟨by simpa using hbefore, ?_⟩
      cases htake : Text.take? name t with
      | none => simp [htake] at h
      | some taken =>
          obtain ⟨written, rest⟩ := taken
          simp only [htake] at h
          split at h
          · simp at h
          · rename_i equals after hequals
            obtain ⟨⟨value', quoted⟩, hquoted, hpair⟩ := Option.map_eq_some_iff.mp h
            simp only [Prod.mk.injEq] at hpair
            obtain ⟨rfl, rfl⟩ := hpair
            obtain ⟨rfl, hloose⟩ := Text.take?_eq_some_iff.mp htake
            obtain ⟨gap, hgap, rfl, rfl⟩ := equals?_eq_some_iff.mp hequals
            obtain ⟨lead, quote, hlead, hquote, hvalue, rfl, behind, rfl⟩ := quotedValue?_eq_some_iff.mp hquoted
            exact ⟨⟨written, gap, lead, quote, value'⟩, ⟨hloose, hgap, hlead, hquote, hvalue⟩, rfl,
              by simp [Quoted.raw], behind, by simp⟩
  · rintro ⟨hbefore, q, hq, rfl, rfl, rest, rfl⟩
    have htake : Text.take? name (q.raw ++ rest) =
        some (q.written, q.gap ++ '=' :: (q.lead ++ q.quote :: q.value ++ [q.quote] ++ rest)) :=
      Text.take?_eq_some_iff.mpr ⟨by simp [Quoted.raw], hq.name_eq⟩
    have hequals : equals? (q.gap ++ '=' :: (q.lead ++ q.quote :: q.value ++ [q.quote] ++ rest)) =
        some (q.gap ++ ['='], q.lead ++ q.quote :: q.value ++ [q.quote] ++ rest) :=
      equals?_eq_some_iff.mpr ⟨q.gap, hq.gap_blank, rfl, rfl⟩
    have hquoted : quotedValue? (q.lead ++ q.quote :: q.value ++ [q.quote] ++ rest) =
        some (q.value, q.lead ++ q.quote :: q.value ++ [q.quote]) :=
      quotedValue?_eq_some_iff.mpr
        ⟨q.lead, q.quote, hq.lead_blank, hq.isQuote_quote, hq.quote_not_mem, rfl, List.prefix_append _ _⟩
    simp only [valued, hbefore, htake, hequals, hquoted, Bool.false_eq_true, if_false, Option.map_some]
    simp [Quoted.raw]

theorem valued_isProper (name : Text) : (valued name).IsProper := by
  intro before t value raw h
  obtain ⟨-, q, -, -, rfl, hprefix⟩ := valued_eq_some_iff.mp h
  exact ⟨by simp [Quoted.raw], hprefix⟩

/-- More text behind an attribute does not change how it is read. -/
theorem valued_append {name : Text} {before : Option Char} {t : Text} {found : Text × Text}
    (h : valued name before t = some found) (more : Text) : valued name before (t ++ more) = some found := by
  obtain ⟨value, raw⟩ := found
  obtain ⟨hbefore, q, hq, hvalue, hraw, hprefix⟩ := valued_eq_some_iff.mp h
  exact valued_eq_some_iff.mpr ⟨hbefore, q, hq, hvalue, hraw, hprefix.trans (List.prefix_append t more)⟩

/-- An attribute is found in what it is written as. -/
theorem mem_values_raw {name : Text} {q : Quoted} (hq : q.IsOf name) : q.value ∈ values name q.raw := by
  have hfound : valued name none (q.raw ++ []) = some (q.value, q.raw) := by
    rw [List.append_nil]
    exact valued_eq_some_iff.mpr ⟨rfl, q, hq, rfl, rfl, List.prefix_refl q.raw⟩
  have hoccurrences := Text.occurrencesFrom_of_front hfound (valued_isProper name none _ _ _ hfound).1 0
  rw [List.append_nil] at hoccurrences
  rw [values, Text.occurrences, hoccurrences]
  exact List.mem_cons_self

/-! ## Inside an attribute -/

section Inside

variable {name : Text} (hname : ∀ c ∈ name, Text.isPlain c = true) (hne : name ≠ [])

include hname hne

/-- An attribute begins with a character that stands for a plain one. -/
theorem valued_eq_none_of_head {c : Char} (hc : Text.isPlain (Text.loose c) = false) (before : Option Char) (t : Text) :
    valued name before (c :: t) = none :=
  (valued_readsNames hname).eq_none_of_head (by simpa using Ne.symm hne) hc t

/-- Behind its first character an attribute holds no other, unless its value does. -/
theorem Quoted.quiet_tail {q : Quoted} (hq : q.IsOf name) (hvalue : '=' ∉ q.value) {c : Char} {tail : Text}
    (hraw : q.raw = c :: tail) (rest : Text) : Text.Quiet (valued name) (some c) tail rest := by
  obtain ⟨written, gap, lead, quote, value⟩ := q
  obtain ⟨hname_eq, hgap, hlead, hquote, -⟩ := hq
  cases written with
  | nil => exact absurd (List.map_eq_nil_iff.mp hname_eq.symm) hne
  | cons d written =>
      have hletters : ∀ e ∈ d :: written, Text.isName e = true :=
        Text.isName_of_map_loose hname_eq fun e he => Text.isName_of_isPlain (hname e he)
      have hmarks : ∀ e ∈ gap ++ '=' :: lead ++ [quote], Text.isPlain (Text.loose e) = false := by
        intro e he
        simp only [List.mem_append, List.mem_cons, List.not_mem_nil, or_false] at he
        rcases he with (he | rfl | he) | rfl
        · exact Text.isPlain_loose_of_isBlank (hgap e he)
        · decide
        · exact Text.isPlain_loose_of_isBlank (hlead e he)
        · exact isPlain_loose_of_isQuote hquote
      obtain ⟨rfl, rfl⟩ : d = c ∧ written ++ gap ++ '=' :: lead ++ quote :: value ++ [quote] = tail := by
        simpa [Quoted.raw] using hraw
      have hpieces : written ++ gap ++ '=' :: lead ++ quote :: value ++ [quote] =
          written ++ ((gap ++ '=' :: lead ++ [quote]) ++ (value ++ [quote])) := by simp
      rw [hpieces]
      have hbefore : (some d).any Text.isName = true := hletters d (by simp)
      obtain ⟨hsign, hother⟩ := isQuote_spec hquote
      refine (Text.quiet_of_isName (valued_skipsNames name) (fun e he => hletters e (by simp [he])) hbefore _).append ?_
      refine (Text.quiet_of_heads (fun e he => valued_eq_none_of_head hname hne (hmarks e he)) _).append ?_
      exact (valued_readsNames hname).quiet_up_to_mark hsign hother hvalue rest

/-- An attribute that is read at a place of the page is one of those that the scan of the page finds, provided that no
value found holds an equals sign. -/
theorem mem_values_of_valued {front rest value raw : Text}
    (h : valued name (Text.lastBefore none front) rest = some (value, raw))
    (hvalues : ∀ v ∈ values name (front ++ rest), '=' ∉ v) : value ∈ values name (front ++ rest) := by
  refine List.mem_map.mpr ⟨_, Text.mem_occurrences_of_recognized (valued_isProper name) ?_ h, rfl⟩
  intro o ho c tail htail
  obtain ⟨_, _, -, -, hread⟩ := Text.exists_of_mem_occurrences ho
  obtain ⟨-, q, hq, hvalue, hraw, -⟩ := valued_eq_some_iff.mp hread
  have hfree : '=' ∉ q.value := hvalue ▸ hvalues o.value (List.mem_map_of_mem ho)
  exact q.quiet_tail hname hne hq hfree (hraw.trans htail)

/-- What is read in an opening tag is found on the page too, provided that no value found there holds an equals sign. -/
theorem mem_values_of_tag {tagName : TagName} {page : Text} {tag : Tag} (htag : tag ∈ Tag.findAll tagName page)
    {value : Text} (h : value? name tag.raw = some value) (hvalues : ∀ v ∈ values name page, '=' ∉ v) :
    value ∈ values name page := by
  obtain ⟨o, ho, rfl⟩ := List.mem_map.mp htag
  obtain ⟨front, rest, rfl, -, hrecognized⟩ := Text.exists_of_mem_occurrences ho
  obtain ⟨opening, hread, -, hraw⟩ := Tag.recognize_eq_some_iff.mp hrecognized
  obtain ⟨found, hfound, rfl⟩ := Option.map_eq_some_iff.mp h
  obtain ⟨inside, written, hsplit, -, hvalued⟩ := Text.exists_of_mem_occurrences (List.mem_of_head? hfound)
  have htext : o.raw = '<' :: (opening.written ++ opening.inner ++ ['>']) := by simp [hraw, Opening.raw]
  have hpage : front ++ rest = front ++ inside ++ (written ++ opening.rest) := by
    rw [Opening.eq_raw_append_of_read? hread, ← hraw]
    simp only at hsplit
    rw [hsplit]
    simp only [List.append_assoc]
  cases inside with
  | nil =>
      -- A tag begins with its bracket, and no attribute does.
      obtain rfl : written = '<' :: (opening.written ++ opening.inner ++ ['>']) := hsplit.symm.trans htext
      rw [valued_eq_none_of_head hname hne (by decide)] at hvalued
      contradiction
  | cons c inside =>
      have hplace : Text.lastBefore none (front ++ c :: inside) = Text.lastBefore none (c :: inside) := by simp
      rw [← hplace] at hvalued
      rw [hpage] at hvalues ⊢
      exact mem_values_of_valued hname hne (valued_append hvalued opening.rest) hvalues

end Inside

end Accessibility.Attribute
