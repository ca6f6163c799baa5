import Accessibility.Text.Blank
import Accessibility.Text.Loose
import Accessibility.Text.Lower
import Accessibility.Text.Word

/-! # Plain names

The names that are looked for consist of ASCII letters, digits and hyphens. For these, loose comparison is equality
up to the case of ASCII letters, and no blank, bracket, quote or equals sign can stand for one of them. -/

namespace Accessibility.Text

/-! ## Checking all of ASCII -/

theorem of_ascii {p : Char → Prop} (h : ∀ n < 128, p (Char.ofNat n)) {c : Char} (hc : c.toNat < 128) : p c :=
  Char.ofNat_toNat c ▸ h c.toNat hc

/-- The letters, digits and hyphens of ASCII. -/
def isPlain (c : Char) : Bool :=
  c.isAlphanum || c == '-'

theorem toNat_lt_of_isPlain {c : Char} (h : isPlain c = true) : c.toNat < 128 := by
  have hbound : ∀ last : Char, last.toNat < 128 → c.val ≤ last.val → c.toNat < 128 := by
    intro last hlast hc
    exact Nat.lt_of_le_of_lt (UInt32.le_iff_toNat_le.mp hc) hlast
  rw [isPlain, Char.isAlphanum, Bool.or_eq_true, Bool.or_eq_true, beq_iff_eq] at h
  rcases h with (hletter | hdigit) | rfl
  · rcases Bool.or_eq_true_iff.mp hletter with hupper | hlower
    · have hc : 'A'.val ≤ c.val ∧ c.val ≤ 'Z'.val := of_decide_eq_true hupper
      exact hbound 'Z' (by decide) hc.2
    · exact hbound 'z' (by decide) (of_decide_eq_true (Bool.and_eq_true_iff.mp hlower).2)
  · exact hbound '9' (by decide) (of_decide_eq_true (Bool.and_eq_true_iff.mp hdigit).2)
  · decide

theorem isPlain_of_isAlphanum {c : Char} (h : c.isAlphanum = true) : isPlain c = true := by
  simp [isPlain, h]

theorem isName_of_isPlain {c : Char} (h : isPlain c = true) : isName c = true :=
  of_ascii (p := fun c => isPlain c = true → isName c = true) (by decide) (toNat_lt_of_isPlain h) h

theorem isBlank_of_isPlain {c : Char} (h : isPlain c = true) : isBlank c = false :=
  of_ascii (p := fun c => isPlain c = true → isBlank c = false) (by decide) (toNat_lt_of_isPlain h) h

/-! ## Loose comparison of plain names -/

theorem loose_eq_toLower {c : Char} (h : c.toNat < 128) : loose c = c.toLower :=
  of_ascii (p := fun c => loose c = c.toLower) (by decide) h

theorem isPlain_loose {c : Char} (h : c.toNat < 128) : isPlain (loose c) = isPlain c :=
  of_ascii (p := fun c => isPlain (loose c) = isPlain c) (by decide) h

/-- Among the characters of ASCII only plain ones stand for a plain one. -/
theorem isPlain_of_loose_eq {a c : Char} (ha : isPlain a = true) (hc : c.toNat < 128) (h : loose c = loose a) :
    isPlain c = true := by
  rw [← isPlain_loose hc, h, isPlain_loose (toNat_lt_of_isPlain ha)]
  exact ha

theorem take?_eq_some_iff {name t front rest : Text} :
    take? name t = some (front, rest) ↔ t = front ++ rest ∧ front.map loose = name.map loose := by
  induction name generalizing t front with
  | nil =>
      simp only [take?, Option.some.injEq, Prod.mk.injEq, List.map_nil, List.map_eq_nil_iff]
      constructor
      · rintro ⟨rfl, rfl⟩
        simp
      · rintro ⟨rfl, rfl⟩
        simp
  | cons n name ih =>
      cases t with
      | nil =>
          simp only [take?, List.map_cons, reduceCtorEq, false_iff, not_and]
          intro h
          obtain ⟨rfl, -⟩ := List.append_eq_nil_iff.mp h.symm
          simp
      | cons c t =>
          cases front with
          | nil => simp [take?]
          | cons d front =>
              simp only [take?, agrees, beq_iff_eq, List.cons_append, List.cons.injEq, List.map_cons]
              by_cases hc : loose n = loose c
              · simp only [hc, if_true, Option.map_eq_some_iff, Prod.exists, Prod.mk.injEq, List.cons.injEq]
                constructor
                · rintro ⟨u, v, huv, ⟨rfl, rfl⟩, rfl⟩
                  obtain ⟨ht, hl⟩ := ih.mp huv
                  exact ⟨⟨rfl, ht⟩, rfl, hl⟩
                · rintro ⟨⟨rfl, ht⟩, -, hl⟩
                  exact ⟨front, rest, ih.mpr ⟨ht, hl⟩, ⟨rfl, rfl⟩, rfl⟩
              · simp only [hc, if_false, reduceCtorEq, false_iff]
                rintro ⟨⟨rfl, -⟩, hl, -⟩
                exact hc hl.symm

/-- What is taken for a plain name holds no other character of ASCII. -/
theorem isPlain_of_mem_take? {name t front rest : Text} (hname : ∀ c ∈ name, isPlain c = true)
    (h : take? name t = some (front, rest)) {c : Char} (hc : c ∈ front) (hascii : c.toNat < 128) :
    isPlain c = true := by
  obtain ⟨-, hmap⟩ := take?_eq_some_iff.mp h
  have hmem : loose c ∈ name.map loose := hmap ▸ List.mem_map_of_mem hc
  obtain ⟨a, ha, hac⟩ := List.mem_map.mp hmem
  exact isPlain_of_loose_eq (hname a ha) hascii hac.symm

/-! ## Lower case of plain names -/

/-- Equality of names up to the case of ASCII letters. -/
def SameName (a b : Text) : Prop :=
  a.map Char.toLower = b.map Char.toLower

instance (a b : Text) : Decidable (SameName a b) :=
  inferInstanceAs (Decidable (a.map Char.toLower = b.map Char.toLower))

theorem map_loose_eq_map_toLower {name : Text} (h : ∀ c ∈ name, isPlain c = true) :
    name.map loose = name.map Char.toLower :=
  List.map_congr_left fun c hc => loose_eq_toLower (toNat_lt_of_isPlain (h c hc))

theorem map_loose_eq_iff {a b : Text} (ha : ∀ c ∈ a, isPlain c = true) (hb : ∀ c ∈ b, isPlain c = true) :
    a.map loose = b.map loose ↔ SameName a b := by
  rw [map_loose_eq_map_toLower ha, map_loose_eq_map_toLower hb, SameName]

/-! ## Lower case of ASCII -/

/-- Of the ranges of capitals only the first holds characters of ASCII. -/
theorem small?_of_ascii {n : Nat} (h : n < 128) :
    caseRanges.findSome? (·.small? n) = if 65 ≤ n ∧ n ≤ 90 then some (n + 32) else none := by
  have hrest : caseRanges.tail.findSome? (·.small? n) = none := by
    have hbeyond : ∀ r ∈ caseRanges.tail, 128 ≤ r.first := by decide +kernel
    refine List.findSome?_eq_none_iff.mpr fun r hr => if_neg fun hrange => ?_
    exact absurd (Nat.le_trans (hbeyond r hr) hrange.1) (Nat.not_le_of_lt h)
  have hsplit : caseRanges = ⟨65, 90, 1, 32⟩ :: caseRanges.tail := rfl
  rw [hsplit, List.findSome?_cons, hrest]
  by_cases hletter : 65 ≤ n ∧ n ≤ 90
  · have hrange : 65 ≤ n ∧ n ≤ 90 ∧ (n - 65) % 1 = 0 := ⟨hletter.1, hletter.2, Nat.mod_one _⟩
    have hsmall : ((n : Int) + 32).toNat = n + 32 := by omega
    simp only [CaseRange.small?, if_pos hrange, if_pos hletter, hsmall]
  · have hrange : ¬(65 ≤ n ∧ n ≤ 90 ∧ (n - 65) % 1 = 0) := fun h => hletter ⟨h.1, h.2.1⟩
    simp only [CaseRange.small?, if_neg hrange, if_neg hletter]

theorem smallLetter_of_ascii {c : Char} (h : c.toNat < 128) : smallLetter c = c.toLower := by
  have hletters : ∀ n < 128,
      (if 65 ≤ n ∧ n ≤ 90 then Char.ofNat (n + 32) else Char.ofNat n) = (Char.ofNat n).toLower := by
    decide
  have hc := hletters c.toNat h
  rw [Char.ofNat_toNat] at hc
  rw [smallLetter, small?_of_ascii h, ← hc]
  by_cases hletter : 65 ≤ c.toNat ∧ c.toNat ≤ 90
  · rw [if_pos hletter, if_pos hletter]
  · rw [if_neg hletter, if_neg hletter]

theorem lowerOne_of_ascii {c : Char} (h : c.toNat < 128) (cased : Bool) (rest : Text) :
    lowerOne cased c rest = [c.toLower] := by
  have hsigma : c ≠ 'Σ' := fun heq => absurd h (heq ▸ by decide)
  have hdotted : c ≠ 'İ' := fun heq => absurd h (heq ▸ by decide)
  rw [lowerOne, if_neg hsigma, if_neg hdotted, smallLetter_of_ascii h]

theorem lowerFrom_of_ascii {t : Text} (h : ∀ c ∈ t, c.toNat < 128) (cased : Bool) :
    lowerFrom cased t = t.map Char.toLower := by
  induction t generalizing cased with
  | nil => rfl
  | cons c t ih =>
      rw [lowerFrom, lowerOne_of_ascii (h c (by simp)), ih fun d hd => h d (by simp [hd])]
      rfl

theorem lower_of_ascii {t : Text} (h : ∀ c ∈ t, c.toNat < 128) : lower t = t.map Char.toLower :=
  lowerFrom_of_ascii h false

theorem lower_of_isPlain {name : Text} (h : ∀ c ∈ name, isPlain c = true) : lower name = name.map Char.toLower :=
  lower_of_ascii fun c hc => toNat_lt_of_isPlain (h c hc)

end Accessibility.Text
