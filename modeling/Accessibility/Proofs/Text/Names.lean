import Accessibility.Proofs.Text.Ascii
import Accessibility.Proofs.Text.Occurrences

/-! # Searching for names

An attribute or a declaration begins with a name that continues no other name, and only blanks stand between the name
and the sign behind it. Where something else stands there, nothing is found, and inside a name nothing is found
either. -/

namespace Accessibility

/-- Nothing is recognised where a name goes on. -/
def Recognizer.SkipsNames {α : Type} (r : Recognizer α) : Prop :=
  ∀ before t, before.any Text.isName = true → r before t = none

namespace Text

variable {α : Type} {r : Recognizer α}

/-! ## Quiet stretches -/

theorem quiet_of_isName (hr : r.SkipsNames) {before : Option Char} {front : Text}
    (hfront : ∀ c ∈ front, isName c = true) (hbefore : before.any isName = true) (rest : Text) :
    Quiet r before front rest := by
  induction front generalizing before with
  | nil => exact quiet_nil r before rest
  | cons c front ih =>
      have hc : (some c).any isName = true := hfront c (by simp)
      exact quiet_cons_iff.mpr ⟨hr before _ hbefore, ih (fun d hd => hfront d (by simp [hd])) hc⟩

theorem quiet_of_heads {before : Option Char} {front : Text} (h : ∀ c ∈ front, ∀ before t, r before (c :: t) = none)
    (rest : Text) : Quiet r before front rest := by
  rintro passed coming rfl hcoming
  obtain ⟨c, coming, rfl⟩ := List.exists_cons_of_ne_nil hcoming
  exact h c (by simp) _ _

/-- Where every find is quiet behind its first character, a place where the recogniser succeeds lies inside no other
find. -/
theorem mem_occurrences_of_recognized (hp : r.IsProper) {front rest raw : Text} {value : α}
    (hquiet : ∀ o ∈ occurrences r (front ++ rest), ∀ c tail, o.raw = c :: tail → ∀ later, Quiet r (some c) tail later)
    (hr : r (lastBefore none front) rest = some (value, raw)) :
    { value, raw, start := front.length } ∈ occurrences r (front ++ rest) := by
  obtain ⟨o, ho, hstart, hstop⟩ := exists_mem_occurrences_of_recognized hp hr
  obtain ⟨front', rest', hpage, hplace, hrecognized⟩ := exists_of_mem_occurrences ho
  have hprefix := (hp _ _ _ _ hrecognized).2
  rw [hplace] at hstart
  rw [Occurrence.stop, hplace] at hstop
  obtain ⟨passed, rfl⟩ : front' <+: front :=
    List.prefix_of_prefix_length_le ⟨rest', hpage.symm⟩ (List.prefix_append front rest) hstart
  obtain rfl : passed ++ rest = rest' := by simpa [List.append_assoc] using hpage
  cases passed with
  | nil =>
      -- The find starts at the place itself.
      rw [List.append_nil] at hr ho ⊢
      obtain ⟨rfl, rfl⟩ := Prod.mk.inj (Option.some.inj (hr.symm.trans hrecognized))
      rwa [← hplace]
  | cons c passed =>
      -- The place lies inside the find, where nothing is recognised.
      obtain ⟨coming, hcoming⟩ : c :: passed <+: o.raw := by
        refine List.prefix_of_prefix_length_le (List.prefix_append _ rest) hprefix ?_
        simp only [List.length_append] at hstop
        omega
      obtain ⟨behind, hbehind⟩ := hprefix
      have hrest : rest = coming ++ behind := by
        rw [← hcoming, List.append_assoc] at hbehind
        exact (List.append_cancel_left hbehind).symm
      have hne : coming ≠ [] := by
        rintro rfl
        rw [← hcoming] at hstop
        simp at hstop
      have hnone := hquiet o ho c (passed ++ coming) hcoming.symm behind passed coming rfl hne
      rw [lastBefore_append, lastBefore_cons, hrest, hnone] at hr
      contradiction

/-! ## A name and the sign behind it -/

/-- The characters of ASCII that belong to no plain name and are not blank. -/
structure IsSign (c : Char) : Prop where
  ascii : c.toNat < 128
  not_plain : isPlain c = false
  not_blank : isBlank c = false

instance (c : Char) : Decidable (IsSign c) :=
  decidable_of_iff (c.toNat < 128 ∧ isPlain c = false ∧ isBlank c = false)
    ⟨fun h => ⟨h.1, h.2.1, h.2.2⟩, fun h => ⟨h.ascii, h.not_plain, h.not_blank⟩⟩

/-- At the front of a text something stands for a name, and a sign follows it after blanks. -/
def Leads (name : Text) (sign : Char) (t : Text) : Prop :=
  ∃ written gap after, t = written ++ (gap ++ sign :: after) ∧ written.map loose = name.map loose ∧
    ∀ c ∈ gap, isBlank c = true

namespace Leads

variable {name : Text} {sign : Char}

theorem not_mem_of_isSign {written : Text} (hname : ∀ c ∈ name, isPlain c = true)
    (h : written.map loose = name.map loose) {c : Char} (hc : IsSign c) : c ∉ written := by
  intro hmem
  have hmap : loose c ∈ name.map loose := h ▸ List.mem_map_of_mem hmem
  obtain ⟨a, ha, heq⟩ := List.mem_map.mp hmap
  have hplain := isPlain_of_loose_eq (hname a ha) hc.ascii heq.symm
  rw [hc.not_plain] at hplain
  contradiction

theorem not_mem_gap_of_isSign {gap : Text} (h : ∀ c ∈ gap, isBlank c = true) {c : Char} (hc : IsSign c) :
    c ∉ gap := by
  intro hmem
  have hblank := h c hmem
  rw [hc.not_blank] at hblank
  contradiction

/-- No other sign stands before the sign that follows a name. -/
theorem mem_upTo {t : Text} (h : Leads name sign t) (hname : ∀ c ∈ name, isPlain c = true) {mark : Char}
    (hmark : IsSign mark) (hne : mark ≠ sign) : sign ∈ upTo mark t := by
  obtain ⟨written, gap, after, rfl, hloose, hgap⟩ := h
  rw [upTo_append (not_mem_of_isSign hname hloose hmark), upTo_append (not_mem_gap_of_isSign hgap hmark)]
  simp [upTo, Ne.symm hne]

/-- What stands before the first sign is the whole name when it does not end in a blank. -/
theorem map_loose_eq {text rest : Text} (h : Leads name sign (text ++ sign :: rest))
    (hname : ∀ c ∈ name, isPlain c = true) (hsign : IsSign sign) (htext : sign ∉ text)
    (hlast : ∀ c ∈ text.getLast?, isPlain c = true) : text.map loose = name.map loose := by
  obtain ⟨written, gap, after, hsplit, hloose, hgap⟩ := h
  have hwhole : text = written ++ gap := by
    rw [← List.append_assoc] at hsplit
    refine (append_cons_inj htext ?_ hsplit).1
    simp [not_mem_of_isSign hname hloose hsign, not_mem_gap_of_isSign hgap hsign]
  have hnone : gap = [] := by
    rcases List.eq_nil_or_concat gap with hnil | ⟨front, c, rfl⟩
    · exact hnil
    · have hc : isBlank c = true := hgap c (by simp)
      have hplain := isBlank_of_isPlain (hlast c (by simp [hwhole, ← List.append_assoc]))
      rw [hc] at hplain
      contradiction
  rw [hwhole, hnone, List.append_nil, hloose]

theorem isPlain_loose_head {c : Char} {t : Text} (h : Leads name sign (c :: t))
    (hname : ∀ c ∈ name, isPlain c = true) (hne : name ≠ []) : isPlain (loose c) = true := by
  obtain ⟨written, gap, after, hsplit, hloose, -⟩ := h
  obtain ⟨d, written, rfl⟩ : ∃ d rest, written = d :: rest := by
    refine List.exists_cons_of_ne_nil ?_
    rintro rfl
    exact hne (List.map_eq_nil_iff.mp hloose.symm)
  obtain rfl : c = d := (List.cons.inj hsplit).1
  have hmem : loose c ∈ name.map loose := hloose ▸ List.mem_cons_self
  obtain ⟨a, ha, heq⟩ := List.mem_map.mp hmem
  rw [← heq, isPlain_loose (toNat_lt_of_isPlain (hname a ha)), hname a ha]

end Leads

end Text

/-- Whatever is recognised begins with one of the names, with the sign behind it, and continues no other name. -/
structure Recognizer.ReadsNames {α : Type} (r : Recognizer α) (names : List Text) (sign : Char) : Prop where
  skips : r.SkipsNames
  leads : ∀ before t found, r before t = some found → ∃ name ∈ names, Text.Leads name sign t
  plain : ∀ name ∈ names, ∀ c ∈ name, Text.isPlain c = true
  sign_isSign : Text.IsSign sign

namespace Recognizer.ReadsNames

open Text

variable {α : Type} {r : Recognizer α} {names : List Text} {sign : Char} {before : Option Char}

theorem eq_none (h : r.ReadsNames names sign) {t : Text} (ht : ∀ name ∈ names, ¬Leads name sign t) :
    r before t = none := by
  refine Option.eq_none_iff_forall_not_mem.mpr fun found hfound => ?_
  obtain ⟨name, hname, hlead⟩ := h.leads before t found hfound
  exact ht name hname hlead

theorem eq_none_of_mark (h : r.ReadsNames names sign) {mark : Char} (hmark : IsSign mark) (hne : mark ≠ sign) {t : Text}
    (ht : sign ∉ upTo mark t) : r before t = none :=
  h.eq_none fun name hname hlead => ht (hlead.mem_upTo (h.plain name hname) hmark hne)

theorem eq_none_of_head (h : r.ReadsNames names sign) (hnames : [] ∉ names) {c : Char}
    (hc : isPlain (loose c) = false) (t : Text) : r before (c :: t) = none := by
  refine h.eq_none fun name hname hlead => ?_
  rw [hlead.isPlain_loose_head (h.plain name hname) (ne_of_mem_of_not_mem hname hnames)] at hc
  contradiction

/-- A plain name is recognised only as a whole. -/
theorem eq_none_of_name (h : r.ReadsNames names sign) {text : Text} (htext : ∀ c ∈ text, isPlain c = true)
    (hother : ∀ name ∈ names, ¬SameName text name) (rest : Text) : r before (text ++ sign :: rest) = none := by
  refine h.eq_none fun name hname hlead => hother name hname ?_
  have hsign : sign ∉ text := by
    intro hmem
    have hplain := htext sign hmem
    rw [h.sign_isSign.not_plain] at hplain
    contradiction
  have hloose := hlead.map_loose_eq (h.plain name hname) h.sign_isSign hsign
    fun c hc => htext c (List.mem_of_getLast? hc)
  exact (map_loose_eq_iff htext (h.plain name hname)).mp hloose

theorem quiet_of_mark (h : r.ReadsNames names sign) {mark : Char} (hmark : IsSign mark) (hne : mark ≠ sign)
    {front rest : Text} (hfront : sign ∉ front) (hrest : sign ∉ upTo mark rest) : Quiet r before front rest := by
  rintro passed coming rfl -
  refine h.eq_none_of_mark hmark hne fun hmem => ?_
  rcases mem_upTo_append hmem with hcoming | hbehind
  · exact hfront (List.mem_append_right passed hcoming)
  · exact hrest hbehind

/-- Up to a mark without the sign, whatever stands behind the mark. -/
theorem quiet_up_to_mark (h : r.ReadsNames names sign) {mark : Char} (hmark : IsSign mark) (hne : mark ≠ sign)
    {front : Text} (hfront : sign ∉ front) (rest : Text) : Quiet r before (front ++ [mark]) rest := by
  have hempty : ∀ t, sign ∉ upTo mark (mark :: t) := by simp [upTo]
  refine (h.quiet_of_mark hmark hne hfront (hempty rest)).append (quiet_cons_iff.mpr ⟨?_, quiet_nil _ _ _⟩)
  exact h.eq_none_of_mark hmark hne (hempty rest)

end Recognizer.ReadsNames

end Accessibility
