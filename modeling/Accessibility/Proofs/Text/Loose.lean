import Accessibility.Proofs.Text.Ascii

/-! # Loose comparison and lower case

Lower case turns a character into the ASCII character that it stands for only where it belongs to ASCII or is the sign
of the kelvin. The dotted capital and the dotless small I and the long S stand for a letter but do not become it. -/

namespace Accessibility.Text

/-! ## What a character stands for -/

/-- Beyond ASCII four characters stand for a letter, and all others for themselves. -/
theorem loose_cases (c : Char) :
    c.toNat < 128 ∨ c ∈ ['\u0130', '\u0131', '\u017f', '\u212a'] ∨ loose c = c := by
  simp only [List.mem_cons, List.not_mem_nil, or_false]
  unfold loose
  split
  · rename_i hcapital
    exact .inl (Nat.lt_of_le_of_lt (UInt32.le_iff_toNat_le.mp hcapital.2) (by decide))
  · split
    · rename_i hi
      rcases hi with rfl | rfl <;> simp
    · split
      · rename_i hs
        simp [hs]
      · split
        · rename_i hk
          simp [hk]
        · simp

/-- A character belongs to names when what it stands for does. -/
theorem isName_loose (c : Char) : isName (loose c) = isName c := by
  rcases loose_cases c with hascii | hletter | hsame
  · exact of_ascii (p := fun c => isName (loose c) = isName c) (by decide +kernel) hascii
  · simp only [List.mem_cons, List.not_mem_nil, or_false] at hletter
    rcases hletter with rfl | rfl | rfl | rfl <;> decide +kernel
  · rw [hsame]

theorem isName_of_map_loose {s t : Text} (h : s.map loose = t.map loose) (ht : ∀ c ∈ t, isName c = true) :
    ∀ c ∈ s, isName c = true := by
  intro c hc
  have hmem : loose c ∈ t.map loose := h ▸ List.mem_map_of_mem hc
  obtain ⟨d, hd, heq⟩ := List.mem_map.mp hmem
  rw [← isName_loose, ← heq, isName_loose]
  exact ht d hd

/-! ## Lower case -/

/-- The characters whose lower case is the ASCII character that they stand for. -/
def LowersLoosely (c : Char) : Prop :=
  c.toNat < 128 ∨ c = '\u212a'

/-- No capital beyond ASCII has its small letter there, except for the sign of the kelvin. -/
theorem lowersLoosely_of_smallLetter {c : Char} (h : (smallLetter c).toNat < 128) : LowersLoosely c := by
  unfold smallLetter at h
  split at h
  · rename_i n hn
    obtain ⟨r, hr, hsmall⟩ := List.exists_of_findSome?_eq_some hn
    obtain ⟨hrange, hpoint⟩ := Option.ite_none_right_eq_some.mp hsmall
    have hranges : ∀ r ∈ caseRanges, r.last < 128 ∨ r.first = 0x212A ∧ r.last = 0x212A ∨ 128 ≤ r.first + r.offset ∧
        (r.last + r.offset < 0xD800 ∨ 0xDFFF < r.first + r.offset ∧ r.last + r.offset < 0x110000) := by
      decide +kernel
    rcases hranges r hr with hascii | hkelvin | ⟨hbeyond, hvalid⟩
    · exact .inl (by omega)
    · refine .inr ?_
      rw [← Char.ofNat_toNat c, show c.toNat = 0x212A by omega]
    · have hn : 128 ≤ n ∧ n.isValidChar := by
        unfold Nat.isValidChar
        have := Option.some.inj hpoint
        omega
      have htoNat : (Char.ofNat n).toNat = n := by
        rw [Char.ofNat, dif_pos hn.2]
        rfl
      omega
  · exact .inl h

theorem lowerOne_of_lowersLoosely {c : Char} (h : LowersLoosely c) (cased : Bool) (rest : Text) :
    lowerOne cased c rest = [loose c] := by
  rcases h with hascii | rfl
  · rw [lowerOne_of_ascii hascii, loose_eq_toLower hascii]
  · rw [lowerOne, if_neg (by decide), if_neg (by decide)]
    decide +kernel

theorem lowersLoosely_of_lowerOne {cased : Bool} {c : Char} {rest : Text}
    (h : ∀ d ∈ lowerOne cased c rest, d.toNat < 128) : LowersLoosely c := by
  unfold lowerOne at h
  split at h
  · split at h
    · exact absurd (h 'ς' List.mem_cons_self) (by decide)
    · exact absurd (h 'σ' List.mem_cons_self) (by decide)
  · split at h
    · exact absurd (h '\u0307' (List.mem_cons_of_mem _ List.mem_cons_self)) (by decide)
    · exact lowersLoosely_of_smallLetter (h _ List.mem_cons_self)

theorem lowerFrom_of_lowersLoosely {t : Text} (h : ∀ c ∈ t, LowersLoosely c) (cased : Bool) :
    lowerFrom cased t = t.map loose := by
  induction t generalizing cased with
  | nil => rfl
  | cons c t ih =>
      rw [lowerFrom, lowerOne_of_lowersLoosely (h c (by simp)), ih fun d hd => h d (by simp [hd])]
      rfl

theorem lower_of_lowersLoosely {t : Text} (h : ∀ c ∈ t, LowersLoosely c) : lower t = t.map loose :=
  lowerFrom_of_lowersLoosely h false

/-- What becomes ASCII in lower case becomes what it stands for. -/
theorem lowersLoosely_of_lowerFrom {t : Text} {cased : Bool} (h : ∀ d ∈ lowerFrom cased t, d.toNat < 128) :
    ∀ c ∈ t, LowersLoosely c := by
  induction t generalizing cased with
  | nil => simp
  | cons c t ih =>
      rw [lowerFrom] at h
      have hc := lowersLoosely_of_lowerOne fun d hd => h d (List.mem_append_left _ hd)
      have ht := ih fun d hd => h d (List.mem_append_right _ hd)
      exact List.forall_mem_cons.mpr ⟨hc, ht⟩

theorem lower_eq_map_loose {t : Text} (h : ∀ d ∈ lower t, d.toNat < 128) : lower t = t.map loose :=
  lower_of_lowersLoosely (lowersLoosely_of_lowerFrom h)

/-- Three characters stand for an ASCII letter that they do not become. -/
theorem lowersLoosely_of_loose {c : Char} (h : (loose c).toNat < 128) (hdotted : c ≠ '\u0130') (hdotless : c ≠ '\u0131')
    (hlong : c ≠ '\u017f') : LowersLoosely c := by
  rcases loose_cases c with hascii | hletter | hsame
  · exact .inl hascii
  · simp only [List.mem_cons, List.not_mem_nil, or_false, hdotted, hdotless, hlong, false_or] at hletter
    exact .inr hletter
  · exact .inl (hsame ▸ h)

end Accessibility.Text
