import Accessibility.Proofs.Color.Parse

/-! # Which texts are colours

The colours that can be written are given by a grammar: the names of the table, three or six hexadecimal digits behind a
number sign, and three numbers in brackets. A text is understood exactly when it belongs to the grammar and none of its
numbers is overlong, and it is understood as the channels that the grammar says. -/

namespace Accessibility.Color

/-! ## The grammar -/

/-- The small hexadecimal digits, each at the place of its value. -/
def hexAlphabet : Text :=
  "0123456789abcdef".toList

def IsHexDigit (c : Char) (n : Nat) : Prop :=
  hexAlphabet[n]? = some c

/-- Two digits and the channel that they denote. -/
def IsChannel (high low : Char) (n : Nat) : Prop :=
  ∃ x y, IsHexDigit high x ∧ IsHexDigit low y ∧ n = 16 * x + y

/-- The number that a run of decimal digits of any script denotes. -/
def number (run : Text) : Nat :=
  Numeral.ofDigits 10 (run.filterMap Text.digitValue?)

/-- The channels of a colour as numbers. -/
def triple (c : Color) : Nat × Nat × Nat :=
  (c.red.val, c.green.val, c.blue.val)

/-- A colour as it can be written without capitals and without blanks around it, and its channels. A digit that stands
for a whole channel is doubled, and a number above the highest channel counts as that. -/
inductive Written : Text → Nat × Nat × Nat → Prop
  | name {t : Text} {c : Color} (h : (t, c) ∈ named) : Written t c.triple
  | three {r g b : Char} {x y z : Nat} (hr : IsChannel r r x) (hg : IsChannel g g y) (hb : IsChannel b b z) :
      Written ['#', r, g, b] (x, y, z)
  | six {r₁ r₂ g₁ g₂ b₁ b₂ : Char} {x y z : Nat} (hr : IsChannel r₁ r₂ x) (hg : IsChannel g₁ g₂ y)
      (hb : IsChannel b₁ b₂ z) : Written ['#', r₁, r₂, g₁, g₂, b₁, b₂] (x, y, z)
  | numbers (f : Form) : Written f.raw (min 255 (number f.red), min 255 (number f.green), min 255 (number f.blue))

/-- A number sign and six hexadecimal digits. -/
def IsCanonical (t : Text) : Prop :=
  ∃ digits, t = '#' :: digits ∧ digits.length = 6 ∧ ∀ d ∈ digits, d ∈ hexAlphabet

/-! ## Reading by the grammar -/

theorem IsHexDigit.lt {c : Char} {n : Nat} (h : IsHexDigit c n) : n < 16 :=
  (List.getElem?_eq_some_iff.mp h).1

theorem hexValue?_eq_some_iff {c : Char} {n : Nat} : hexValue? c = some n ↔ IsHexDigit c n := by
  constructor
  · intro h
    have hascii : c.toNat < 128 := by
      have hbound : ∀ last : Char, last.toNat < 128 → c ≤ last → c.toNat < 128 :=
        fun last hlast hc => Nat.lt_of_le_of_lt (UInt32.le_iff_toNat_le.mp hc) hlast
      unfold hexValue? at h
      split at h
      · rename_i hdigit
        exact hbound '9' (by decide) hdigit.2
      · split at h
        · rename_i hletter
          exact hbound 'f' (by decide) hletter.2
        · contradiction
    have hall : ∀ m < 128, ∀ v ∈ hexValue? (Char.ofNat m), hexAlphabet[v]? = some (Char.ofNat m) := by decide
    exact Text.of_ascii (p := fun c => ∀ v ∈ hexValue? c, hexAlphabet[v]? = some c) hall hascii n h
  · intro h
    have hall : ∀ m < 16, hexAlphabet[m]?.bind hexValue? = some m := by decide
    rw [← hall n h.lt, h, Option.bind_some]

theorem channel?_eq_some_iff {high low : Char} {n : Fin 256} :
    channel? high low = some n ↔ IsChannel high low n.val := by
  have hvalue : ∀ x y, IsHexDigit high x → IsHexDigit low y → (Fin.ofNat 256 (16 * x + y)).val = 16 * x + y := by
    intro x y hx hy
    have hxlt := hx.lt
    have hylt := hy.lt
    exact Nat.mod_eq_of_lt (by omega)
  constructor
  · intro h
    obtain ⟨x, hx, h⟩ := Option.bind_eq_some_iff.mp h
    obtain ⟨y, hy, rfl⟩ := Option.map_eq_some_iff.mp h
    rw [hexValue?_eq_some_iff] at hx hy
    exact ⟨x, y, hx, hy, hvalue x y hx hy⟩
  · rintro ⟨x, y, hx, hy, hn⟩
    rw [channel?, hexValue?_eq_some_iff.mpr hx, hexValue?_eq_some_iff.mpr hy, Option.bind_some, Option.map_some]
    exact congrArg some (Fin.ext ((hvalue x y hx hy).trans hn.symm))

theorem IsChannel.exists_channel? {high low : Char} {n : Nat} (h : IsChannel high low n) :
    ∃ c : Fin 256, channel? high low = some c ∧ c.val = n := by
  obtain ⟨x, y, hx, hy, rfl⟩ := h
  have hlt : 16 * x + y < 256 := by
    have hxlt := hx.lt
    have hylt := hy.lt
    omega
  exact ⟨⟨_, hlt⟩, channel?_eq_some_iff.mpr ⟨x, y, hx, hy, rfl⟩, rfl⟩

theorem named?_eq_some_iff {t : Text} {c : Color} : named? t = some c ↔ (t, c) ∈ named := by
  constructor
  · intro h
    obtain ⟨entry, hentry, rfl⟩ := Option.map_eq_some_iff.mp h
    have hkey : (entry.1 == t) = true := List.find?_some (p := fun e : Text × Color => e.1 == t) hentry
    exact eq_of_beq hkey ▸ List.mem_of_find?_eq_some hentry
  · intro h
    have hall : ∀ entry ∈ named, named? entry.1 = some entry.2 := by decide
    exact hall (t, c) h

theorem named?_sharp (t : Text) : named? ('#' :: t) = none := by
  have hnames : ∀ entry ∈ named, entry.1.head? ≠ some '#' := by decide
  refine Option.eq_none_iff_forall_not_mem.mpr fun c hc => ?_
  exact hnames _ (named?_eq_some_iff.mp hc) rfl

theorem readChannel_eq_ok {run : Text} (h : ¬Fault.digitLimit < run.length) :
    ∃ c : Fin 256, readChannel run = .ok c ∧ c.val = min 255 (number run) := by
  have hread : Numeral.readRun run = .ok (number run) := if_neg h
  refine ⟨Fin.ofNat 256 (min 255 (number run)), by rw [readChannel, hread]; rfl, Nat.mod_eq_of_lt ?_⟩
  exact Nat.lt_of_le_of_lt (Nat.min_le_left 255 _) (by decide)

/-! ## Understanding by the grammar -/

theorem parse_text (v : Text) :
    parse (.text v) =
      match named? (normal v) with
      | some c => .ok (some c)
      | none =>
        match ofHex? (normal v) with
        | some c => .ok (some c)
        | none =>
          match numbers? (normal v) with
          | none => .ok none
          | some (r, g, b) => do return some ⟨← readChannel r, ← readChannel g, ← readChannel b⟩ := rfl

/-- A colour of the grammar is understood as the channels that the grammar says. -/
theorem parse_of_written {v : Text} {channels : Nat × Nat × Nat} (h : Written (normal v) channels)
    (hshort : ¬IsOverlong (normal v)) : ∃ c, parse (.text v) = .ok (some c) ∧ c.triple = channels := by
  generalize hw : normal v = w at h hshort
  cases h with
  | @name _ c hname =>
      refine ⟨c, ?_, rfl⟩
      rw [parse_text, hw, named?_eq_some_iff.mpr hname]
  | three hr hg hb =>
      obtain ⟨red, hred, rfl⟩ := hr.exists_channel?
      obtain ⟨green, hgreen, rfl⟩ := hg.exists_channel?
      obtain ⟨blue, hblue, rfl⟩ := hb.exists_channel?
      refine ⟨⟨red, green, blue⟩, ?_, rfl⟩
      simp only [parse_text, hw, named?_sharp, ofHex?, hred, hgreen, hblue, Option.bind_some, Option.map_some]
  | six hr hg hb =>
      obtain ⟨red, hred, rfl⟩ := hr.exists_channel?
      obtain ⟨green, hgreen, rfl⟩ := hg.exists_channel?
      obtain ⟨blue, hblue, rfl⟩ := hb.exists_channel?
      refine ⟨⟨red, green, blue⟩, ?_, rfl⟩
      simp only [parse_text, hw, named?_sharp, ofHex?, hred, hgreen, hblue, Option.bind_some, Option.map_some]
  | numbers f =>
      have hf : ¬f.IsOverlong := fun hlong => hshort ⟨f, rfl, hlong⟩
      rw [Form.IsOverlong, not_or, not_or] at hf
      obtain ⟨red, hred, hredNumber⟩ := readChannel_eq_ok hf.1
      obtain ⟨green, hgreen, hgreenNumber⟩ := readChannel_eq_ok hf.2.1
      obtain ⟨blue, hblue, hblueNumber⟩ := readChannel_eq_ok hf.2.2
      refine ⟨⟨red, green, blue⟩, ?_, ?_⟩
      · rw [parse_raw hw.symm, hred, hgreen, hblue]
        rfl
      · rw [triple, hredNumber, hgreenNumber, hblueNumber]

theorem written_of_ofHex? {t : Text} {c : Color} (h : ofHex? t = some c) : Written t c.triple := by
  unfold ofHex? at h
  split at h
  · obtain ⟨red, hred, h⟩ := Option.bind_eq_some_iff.mp h
    obtain ⟨green, hgreen, h⟩ := Option.bind_eq_some_iff.mp h
    obtain ⟨blue, hblue, rfl⟩ := Option.map_eq_some_iff.mp h
    rw [channel?_eq_some_iff] at hred hgreen hblue
    exact .three hred hgreen hblue
  · obtain ⟨red, hred, h⟩ := Option.bind_eq_some_iff.mp h
    obtain ⟨green, hgreen, h⟩ := Option.bind_eq_some_iff.mp h
    obtain ⟨blue, hblue, rfl⟩ := Option.map_eq_some_iff.mp h
    rw [channel?_eq_some_iff] at hred hgreen hblue
    exact .six hred hgreen hblue
  · contradiction

theorem exists_written_of_form {f : Form} {t : Text} (h : f.raw = t) : ∃ channels, Written t channels := by
  subst h
  exact ⟨_, .numbers f⟩

/-- Nothing but the grammar is understood. -/
theorem exists_written_of_parse {v : Text} {c : Color} (h : parse (.text v) = .ok (some c)) :
    ∃ channels, Written (normal v) channels := by
  rw [parse_text] at h
  cases hnamed : named? (normal v) with
  | some d => exact ⟨_, .name (named?_eq_some_iff.mp hnamed)⟩
  | none =>
      cases hhex : ofHex? (normal v) with
      | some d => exact ⟨_, written_of_ofHex? hhex⟩
      | none =>
          cases hnumbers : numbers? (normal v) with
          | some runs =>
              obtain ⟨f, hf, -⟩ := numbers?_eq_some_iff.mp hnumbers
              exact exists_written_of_form hf
          | none =>
              simp only [hnamed, hhex, hnumbers] at h
              cases h

theorem not_isOverlong_of_parse {v : Text} {c : Option Color} (h : parse (.text v) = .ok c) :
    ¬IsOverlong (normal v) := by
  intro hlong
  obtain ⟨n, -, herror⟩ := parse_of_overlong hlong
  rw [herror] at h
  contradiction

theorem parse_eq_none_iff {v : Text} :
    parse (.text v) = .ok none ↔ ∀ channels, ¬Written (normal v) channels := by
  constructor
  · intro h channels hwritten
    obtain ⟨c, hc, -⟩ := parse_of_written hwritten (not_isOverlong_of_parse h)
    rw [hc] at h
    cases h
  · intro h
    have hshort : ¬IsOverlong (normal v) := by
      rintro ⟨f, hf, -⟩
      obtain ⟨channels, hwritten⟩ := exists_written_of_form hf
      exact h channels hwritten
    obtain ⟨c, hc⟩ := parse_of_not_overlong hshort
    cases c with
    | none => exact hc
    | some d =>
        obtain ⟨channels, hwritten⟩ := exists_written_of_parse hc
        exact absurd hwritten (h channels)

theorem exists_parse_error_iff {v : Text} : (∃ f, parse (.text v) = .error f) ↔ IsOverlong (normal v) := by
  constructor
  · rintro ⟨f, hf⟩
    refine Classical.byContradiction fun hshort => ?_
    obtain ⟨c, hc⟩ := parse_of_not_overlong hshort
    rw [hc] at hf
    contradiction
  · intro hlong
    obtain ⟨n, -, hn⟩ := parse_of_overlong hlong
    exact ⟨_, hn⟩

theorem triple_eq_of_written {v : Text} {c : Color} {channels : Nat × Nat × Nat}
    (h : parse (.text v) = .ok (some c)) (hwritten : Written (normal v) channels) : c.triple = channels := by
  obtain ⟨d, hd, htriple⟩ := parse_of_written hwritten (not_isOverlong_of_parse h)
  rw [h] at hd
  cases hd
  exact htriple

/-! ## Canonical forms -/

theorem hex_eq (c : Color) : c.hex = ['#', Text.hexDigit (c.red.val / 16 % 16), Text.hexDigit (c.red.val % 16),
    Text.hexDigit (c.green.val / 16 % 16), Text.hexDigit (c.green.val % 16), Text.hexDigit (c.blue.val / 16 % 16),
    Text.hexDigit (c.blue.val % 16)] := rfl

theorem isCanonical_hex (c : Color) : IsCanonical c.hex := by
  have hdigit : ∀ d < 16, Text.hexDigit d ∈ hexAlphabet := by decide
  refine ⟨_, hex_eq c, rfl, fun d hd => ?_⟩
  simp only [List.mem_cons, List.not_mem_nil, or_false] at hd
  rcases hd with rfl | rfl | rfl | rfl | rfl | rfl
  all_goals exact hdigit _ (Nat.mod_lt _ (by decide))

theorem read?_hexDigits : ∀ n : Fin 256,
    Numeral.read? 16 [Text.hexDigit (n.val / 16 % 16), Text.hexDigit (n.val % 16)] = some (n.val : Int) := by
  decide +kernel

/-- The channels of a canonical form are those of the colour. -/
theorem channels_hex (c : Color) : channels c.hex = .ok (c.red.val, c.green.val, c.blue.val) := by
  have hsharp : ∀ d < 16, (Text.hexDigit d == '#') = false := by decide
  have hfirst := hsharp (c.red.val / 16 % 16) (Nat.mod_lt _ (by decide))
  simp only [channels, hex_eq, List.dropWhile_cons, beq_self_eq_true, if_true, hfirst, Bool.false_eq_true, if_false,
    List.drop_zero, List.drop_succ_cons, List.take_succ_cons, List.take_zero, read?_hexDigits]
  rfl

theorem resolve_hex (c : Color) (default : Text) : resolve (.text c.hex) default = .ok c.hex := by
  rw [resolve, parse_hex]
  rfl

theorem exists_hex_of_resolve {v default t : Text} (h : resolve (.text v) default = .ok t)
    (hcolor : parse (.text v) ≠ .ok none ∨ ∃ d : Color, default = d.hex) : ∃ c : Color, t = c.hex := by
  rw [resolve] at h
  cases hparse : parse (.text v) with
  | error f =>
      rw [hparse] at h
      cases h
  | ok found =>
      rw [hparse] at h
      cases found with
      | some c =>
          cases h
          exact ⟨c, rfl⟩
      | none =>
          cases h
          exact hcolor.resolve_left fun hne => hne hparse

/-! ## Colours -/

/-- A text is understood unless it is outside the grammar, and only an overlong number makes a colour fail. What is
understood has a canonical form with the channels of the grammar, which is understood as itself and therefore stays as
it is where it is resolved again, whatever the default. -/
theorem parse_by_grammar (v : Text) :
    (parse (.text v) = .ok none ↔ ∀ channels, ¬Written (normal v) channels) ∧
    ((∃ f, parse (.text v) = .error f) ↔ IsOverlong (normal v)) ∧
    (∀ c, parse (.text v) = .ok (some c) → IsCanonical c.hex ∧
      (∀ r g b, Written (normal v) (r, g, b) → channels c.hex = .ok (↑r, ↑g, ↑b)) ∧
      parse (.text c.hex) = .ok (some c) ∧ ∀ default, resolve (.text c.hex) default = .ok c.hex) ∧
    ∀ default t, resolve (.text v) default = .ok t →
      (parse (.text v) ≠ .ok none ∨ ∃ d : Color, default = d.hex) →
      ∀ other, resolve (.text t) other = .ok t := by
  refine ⟨parse_eq_none_iff, exists_parse_error_iff, fun c hc => ?_, fun default t ht hcolor other => ?_⟩
  · refine ⟨isCanonical_hex c, fun r g b hwritten => ?_, parse_hex c, resolve_hex c⟩
    have htriple := triple_eq_of_written hc hwritten
    rw [triple, Prod.mk.injEq, Prod.mk.injEq] at htriple
    obtain ⟨rfl, rfl, rfl⟩ := htriple
    exact channels_hex c
  · obtain ⟨c, rfl⟩ := exists_hex_of_resolve ht hcolor
    exact resolve_hex c other

/-- A colour with an opacity, the number 7 in Arabic digits, and a number above the highest channel. -/
def sevenInArabic : Form where
  alpha := ['a']
  opening := "( ".toList
  red := "300".toList
  first := " ,".toList
  green := "\u0660\u0660\u0667".toList
  second := ", ".toList
  blue := "12".toList
  tail := " ,.5 ".toList
  alpha_eq := .inr rfl
  opening_spaced := ⟨[], [' '], List.all_eq_true.mp (by decide), List.all_eq_true.mp (by decide), rfl⟩
  red_run := ⟨by decide, List.all_eq_true.mp (by decide)⟩
  first_spaced := ⟨[' '], [], List.all_eq_true.mp (by decide), List.all_eq_true.mp (by decide), rfl⟩
  green_run := ⟨by decide, List.all_eq_true.mp (by decide)⟩
  second_spaced := ⟨[], [' '], List.all_eq_true.mp (by decide), List.all_eq_true.mp (by decide), rfl⟩
  blue_run := ⟨by decide, List.all_eq_true.mp (by decide)⟩
  tail_eq := .inr ⟨[' ', ','], ".5".toList, [' '], ⟨[' '], [], List.all_eq_true.mp (by decide),
    List.all_eq_true.mp (by decide), rfl⟩, ⟨by decide, List.all_eq_true.mp (by decide)⟩,
    List.all_eq_true.mp (by decide), rfl⟩

theorem parse_by_grammar_arabic :
    ∃ v c, v = " RGBA( 300 ,\u0660\u0660\u0667, 12 ,.5 )\n".toList ∧ parse (.text v) = .ok (some c) ∧
      Written (normal v) (255, 7, 12) ∧ channels c.hex = .ok (255, 7, 12) ∧ parse (.text c.hex) = .ok (some c) := by
  have hnormal : normal " RGBA( 300 ,\u0660\u0660\u0667, 12 ,.5 )\n".toList = sevenInArabic.raw := by decide +kernel
  have hparse : parse (.text " RGBA( 300 ,\u0660\u0660\u0667, 12 ,.5 )\n".toList) = .ok (some ⟨255, 7, 12⟩) := by
    rw [parse_raw hnormal.symm]
    rfl
  have hnumbers : (min 255 (number sevenInArabic.red), min 255 (number sevenInArabic.green),
      min 255 (number sevenInArabic.blue)) = (255, 7, 12) := by decide +kernel
  have hwritten : Written (normal " RGBA( 300 ,\u0660\u0660\u0667, 12 ,.5 )\n".toList) (255, 7, 12) := by
    rw [hnormal, ← hnumbers]
    exact .numbers sevenInArabic
  obtain ⟨-, hchannels, hcanonical, -⟩ := (parse_by_grammar _).2.2.1 _ hparse
  exact ⟨_, _, rfl, hparse, hwritten, hchannels 255 7 12 hwritten, hcanonical⟩

end Accessibility.Color
