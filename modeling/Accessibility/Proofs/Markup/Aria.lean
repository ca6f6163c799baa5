import Accessibility.Proofs.Markup.AttributeScan

/-! # Names of accessibility attributes

An accessibility attribute is found in two ways: by looking for its name, and by reading whatever name begins as those
of accessibility attributes do. A name that is read so goes on as far as it can, and nothing else is read before its
equals sign. So a name that is looked for is also read, unless a character stands for a letter that it does not become
in lower case. -/

namespace Accessibility.Attribute

/-! ## No other name is read inside one -/

theorem aria_eq_none_of_head {c : Char} (hc : Text.isName c = false) (before : Option Char) (t : Text) :
    aria before (c :: t) = none := by
  refine Option.eq_none_iff_forall_not_mem.mpr fun found hfound => ?_
  obtain ⟨-, written, gap, hwritten, -, -, hraw, hprefix⟩ := aria_eq_some_iff.mp (found.eta ▸ hfound)
  obtain ⟨d, written, rfl⟩ := List.exists_cons_of_ne_nil hwritten.ne_nil
  rw [hraw] at hprefix
  obtain rfl : d = c := (List.cons_prefix_cons.mp hprefix).1
  rw [hwritten.isName d List.mem_cons_self] at hc
  contradiction

/-- Behind its first character a name goes on, and what follows it begins no name. -/
theorem aria_quiet_tail {before : Option Char} {t value raw tail : Text} {c : Char}
    (h : aria before t = some (value, raw)) (hraw : raw = c :: tail) (later : Text) :
    Text.Quiet aria (some c) tail later := by
  obtain ⟨-, written, gap, hwritten, hgap, -, rfl, -⟩ := aria_eq_some_iff.mp h
  obtain ⟨d, written, rfl⟩ := List.exists_cons_of_ne_nil hwritten.ne_nil
  obtain ⟨rfl, rfl⟩ := List.cons.inj hraw
  obtain ⟨hd, hnames⟩ := List.forall_mem_cons.mp hwritten.isName
  have hmarks : ∀ e ∈ gap ++ ['='], Text.isName e = false :=
    List.forall_mem_append.mpr ⟨fun e he => Text.isName_of_isBlank (hgap e he), by simp; decide⟩
  have hbefore : (some d).any Text.isName = true := hd
  exact (Text.quiet_of_isName aria_skipsNames hnames hbefore _).append
    (Text.quiet_of_heads (fun e he => aria_eq_none_of_head (hmarks e he)) later)

/-- The scan finds every name that can be read. -/
theorem mem_ariaNames_iff {a page : Text} :
    a ∈ ariaNames page ↔ ∃ front rest raw, page = front ++ rest ∧
      aria (Text.lastBefore none front) rest = some (a, raw) := by
  constructor
  · intro h
    obtain ⟨o, ho, rfl⟩ := List.mem_map.mp h
    obtain ⟨front, rest, hpage, -, hr⟩ := Text.exists_of_mem_occurrences ho
    exact ⟨front, rest, o.raw, hpage, hr⟩
  · rintro ⟨front, rest, raw, rfl, hr⟩
    refine List.mem_map.mpr ⟨_, Text.mem_occurrences_of_recognized aria_isProper ?_ hr, rfl⟩
    intro o ho c tail hraw
    obtain ⟨_, _, -, -, hread⟩ := Text.exists_of_mem_occurrences ho
    exact aria_quiet_tail hread hraw

/-! ## Both ways of finding a name -/

/-- Small letters, digits, hyphens and low lines. -/
def isSmall (c : Char) : Bool :=
  c.isLower || c.isDigit || c == '-' || c == '_'

theorem isSmall_spec {c : Char} (h : isSmall c = true) :
    c.toNat < 128 ∧ Text.isName c = true ∧ Text.loose c = c := by
  have hascii : c.toNat < 128 := by
    simp only [isSmall, Bool.or_eq_true, beq_iff_eq] at h
    rcases h with ((hletter | hdigit) | rfl) | rfl
    · have halpha : c.isAlpha = true := Bool.or_eq_true_iff.mpr (.inr hletter)
      exact Text.toNat_lt_of_isPlain (Text.isPlain_of_isAlphanum (Bool.or_eq_true_iff.mpr (.inl halpha)))
    · exact Text.toNat_lt_of_isPlain (Text.isPlain_of_isAlphanum (Bool.or_eq_true_iff.mpr (.inr hdigit)))
    · decide
    · decide
  refine ⟨hascii, ?_⟩
  exact Text.of_ascii (p := fun c => isSmall c = true → Text.isName c = true ∧ Text.loose c = c) (by decide +kernel)
    hascii h

theorem isSmall_of_mem_append {tail : Text} (htail : ∀ c ∈ tail, isSmall c = true) :
    ∀ c ∈ ariaFront ++ tail, isSmall c = true :=
  List.forall_mem_append.mpr ⟨List.all_eq_true.mp (by decide), htail⟩

theorem map_loose_of_isSmall {t : Text} (h : ∀ c ∈ t, isSmall c = true) : t.map Text.loose = t :=
  (List.map_congr_left fun c hc => (isSmall_spec (h c hc)).2.2).trans (List.map_id t)

/-- A name that is looked for may be written with any characters that stand for its own. -/
theorem isAria_of_map_loose {tail written : Text} (hne : tail ≠ []) (htail : ∀ c ∈ tail, isSmall c = true)
    (h : written.map Text.loose = (ariaFront ++ tail).map Text.loose) : IsAria written := by
  rw [List.map_append] at h
  obtain ⟨front, more, rfl, hfront, hmore⟩ := List.map_eq_append_iff.mp h
  refine ⟨front, more, rfl, hfront, ?_, ?_⟩
  · rintro rfl
    exact hne (List.map_eq_nil_iff.mp hmore.symm)
  · exact Text.isName_of_map_loose hmore fun c hc => (isSmall_spec (htail c hc)).2.1

theorem isGiven_of_mem_ariaNames {name page : Text} (hname : ∀ c ∈ name, isSmall c = true)
    (h : name ∈ ariaNames page) : isGiven name page = true := by
  obtain ⟨front, rest, raw, rfl, hread⟩ := mem_ariaNames_iff.mp h
  obtain ⟨hbefore, written, gap, -, hgap, hlower, hraw, hprefix⟩ := aria_eq_some_iff.mp hread
  have hwritten : Text.lower written = written.map Text.loose :=
    Text.lower_eq_map_loose fun c hc => (isSmall_spec (hname c (hlower ▸ hc))).1
  have hloose : written.map Text.loose = name.map Text.loose := by
    rw [map_loose_of_isSmall hname, hlower, hwritten]
  exact isGiven_iff.mpr ⟨front, rest, (written, raw), rfl,
    named_eq_some_iff.mpr ⟨hbefore, gap, hloose, hgap, hraw, hprefix⟩⟩

theorem mem_ariaNames_of_isGiven {tail page : Text} (hne : tail ≠ []) (htail : ∀ c ∈ tail, isSmall c = true)
    (hdotted : '\u0130' ∉ page) (hdotless : '\u0131' ∉ page) (hlong : '\u017f' ∉ page)
    (h : isGiven (ariaFront ++ tail) page = true) : ariaFront ++ tail ∈ ariaNames page := by
  have hsmall := isSmall_of_mem_append htail
  obtain ⟨front, rest, ⟨written, raw⟩, rfl, hread⟩ := isGiven_iff.mp h
  obtain ⟨hbefore, gap, hname, hgap, rfl, hprefix⟩ := named_eq_some_iff.mp hread
  have hloose : written.map Text.loose = ariaFront ++ tail := hname.trans (map_loose_of_isSmall hsmall)
  have hlowers : ∀ c ∈ written, Text.LowersLoosely c := by
    intro c hc
    have hrest : c ∈ rest := hprefix.subset (List.mem_append_left _ hc)
    have hmem : c ∈ front ++ rest := List.mem_append_right front hrest
    have hstands : Text.loose c ∈ ariaFront ++ tail := hloose ▸ List.mem_map_of_mem hc
    exact Text.lowersLoosely_of_loose (isSmall_spec (hsmall _ hstands)).1 (ne_of_mem_of_not_mem hmem hdotted)
      (ne_of_mem_of_not_mem hmem hdotless) (ne_of_mem_of_not_mem hmem hlong)
  have hlower : ariaFront ++ tail = Text.lower written := by rw [Text.lower_of_lowersLoosely hlowers, hloose]
  exact mem_ariaNames_iff.mpr ⟨front, rest, written ++ (gap ++ ['=']), rfl, aria_eq_some_iff.mpr
    ⟨hbefore, written, gap, isAria_of_map_loose hne htail hname, hgap, hlower, rfl, hprefix⟩⟩

/-- Whatever name of an accessibility attribute is read, looking for that name succeeds. Looking for a name succeeds
only where it is read, if no character of the page stands for a letter that it does not become in lower case. -/
theorem isGiven_agrees_with_ariaNames {tail : Text} (hne : tail ≠ []) (htail : ∀ c ∈ tail, isSmall c = true)
    (page : Text) :
    (ariaFront ++ tail ∈ ariaNames page → isGiven (ariaFront ++ tail) page = true) ∧
      ('\u0130' ∉ page → '\u0131' ∉ page → '\u017f' ∉ page →
        (isGiven (ariaFront ++ tail) page = true ↔ ariaFront ++ tail ∈ ariaNames page)) := by
  have hsmall := isSmall_of_mem_append htail
  refine ⟨isGiven_of_mem_ariaNames hsmall, fun hdotted hdotless hlong => ?_⟩
  exact ⟨mem_ariaNames_of_isGiven hne htail hdotted hdotless hlong, isGiven_of_mem_ariaNames hsmall⟩

/-- Capitals and the sign of the kelvin, behind a longer name and a name that ends too early. -/
theorem isGiven_agrees_with_ariaNames_kelvin :
    ∃ page, page = "<p x-aria-key='' aria-=2 ARIA-\u212aEY_1 ='k'>".toList ∧
      isGiven "aria-key_1".toList page = true ∧ "aria-key_1".toList ∈ ariaNames page := by
  have hne : "key_1".toList ≠ [] := by decide
  obtain ⟨-, hagree⟩ := isGiven_agrees_with_ariaNames hne (List.all_eq_true.mp (by decide))
    "<p x-aria-key='' aria-=2 ARIA-\u212aEY_1 ='k'>".toList
  have hgiven : isGiven "aria-key_1".toList "<p x-aria-key='' aria-=2 ARIA-\u212aEY_1 ='k'>".toList = true := by
    decide +kernel
  exact ⟨_, rfl, hgiven, (hagree (by decide) (by decide) (by decide)).mp hgiven⟩

/-- The long S stands for the letter and stays as it is in lower case. -/
example : isGiven "aria-busy".toList "<p ARIA-BU\u017fY=1>".toList = true ∧
    ariaNames "<p ARIA-BU\u017fY=1>".toList = ["aria-bu\u017fy".toList] := by
  decide +kernel

end Accessibility.Attribute
