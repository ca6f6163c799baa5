import Accessibility.CommandLine.Grammar

/-! # What a word is read as

Reading a word fails only if it is a pair of hyphens, perhaps with an equals sign behind it, as long as the names of
the options can be told apart. A word stands for itself if it does not start with a hyphen, or if it is a negative
number. -/

namespace Accessibility.CommandLine

variable {σ : Type} {g : Grammar σ}

namespace Grammar

theorem front_ne_of_head {w : Text} (h : w.head? ≠ some '-') : Text.upTo '=' w ≠ separatorWord := by
  intro hfront
  obtain ⟨rest, rfl⟩ : separatorWord <+: w := hfront ▸ List.takeWhile_prefix _
  exact h rfl

theorem readWord_of_head {w : Text} (h : w.head? ≠ some '-') : g.readWord w = .ok (.plain w) :=
  if_pos h

/-! ## Names that are told apart -/

/-- A name is a hyphen and a letter, or two hyphens and a word. No two names agree in the letter, or in the first letter
of the word. -/
structure TellsApart (g : Grammar σ) : Prop where
  short_or_long : ∀ named ∈ g.named, named.1.length = 2 ∨ separatorWord <+: named.1
  apart : g.named.Pairwise fun named other => named.1.take 3 ≠ other.1.take 3

theorem length_filterMap_le_one {α β : Type} {f : α → Option β} {l : List α}
    (h : l.Pairwise fun a b => (f a).isSome → (f b).isSome → False) : (l.filterMap f).length ≤ 1 := by
  induction l with
  | nil => exact Nat.zero_le 1
  | cons a l ih =>
      rw [List.pairwise_cons] at h
      cases ha : f a with
      | none => simpa only [List.filterMap_cons, ha] using ih h.2
      | some b =>
          have hrest : l.filterMap f = [] := by
            refine List.filterMap_eq_nil_iff.mpr fun c hc => ?_
            cases hb : f c with
            | none => rfl
            | some d => exact (h.1 c hc (by rw [ha]; rfl) (by rw [hb]; rfl)).elim
          simp only [List.filterMap_cons, ha, hrest, List.length_singleton, Nat.le_refl]

/-- A front that is longer than its hyphens settles the first three characters of a name. -/
theorem take_three_of_front {w name : Text} (hhyphens : separatorWord <+: w) (hfront : Text.upTo '=' w ≠ separatorWord)
    (h : Text.upTo '=' w <+: name) : name.take 3 = (Text.upTo '=' w).take 3 := by
  obtain ⟨rest, rfl⟩ := hhyphens
  rw [Text.upTo_append (by decide)] at hfront h ⊢
  obtain ⟨behind, rfl⟩ := h
  cases hrest : Text.upTo '=' rest with
  | nil =>
      rw [hrest] at hfront
      exact absurd rfl hfront
  | cons c front => rfl

/-- A word that a name agrees with, other than in two hyphens, settles that name. -/
theorem TellsApart.take_three_of_short (hg : g.TellsApart) {w : Text} (hlong : 2 ≤ w.length)
    (hhyphens : ¬separatorWord <+: w) {named : Text × OptionRule σ} (hnamed : named ∈ g.named)
    (h : named.1 = w.take 2 ∨ w <+: named.1) : named.1.take 3 = w.take 2 := by
  rcases h with hname | hprefix
  · rw [hname, List.take_take]
    rfl
  · rcases hg.short_or_long named hnamed with hshort | hhyphened
    · have heq : w = named.1 := hprefix.eq_of_length_le (hshort ▸ hlong)
      rw [heq, List.take_of_length_le (hshort ▸ by decide), List.take_of_length_le (Nat.le_of_eq hshort)]
    · exact absurd (List.prefix_of_prefix_length_le hhyphened hprefix hlong) hhyphens

/-- At most one name is begun by a word that goes on behind its hyphens. -/
theorem length_candidates_le_one (hg : g.TellsApart) {w : Text} (hlong : 2 ≤ w.length)
    (hfront : Text.upTo '=' w ≠ separatorWord) : (g.candidates w).length ≤ 1 := by
  unfold candidates
  by_cases hhyphens : ['-', '-'].isPrefixOf w = true
  · rw [if_pos hhyphens]
    have hkey : ∀ named : Text × OptionRule σ, (Text.upTo '=' w).isPrefixOf named.1 = true →
        named.1.take 3 = (Text.upTo '=' w).take 3 := fun named hbegun =>
      take_three_of_front (List.isPrefixOf_iff_prefix.mp hhyphens) hfront (List.isPrefixOf_iff_prefix.mp hbegun)
    dsimp only [splitEquals]
    rw [List.length_map, ← List.filterMap_eq_filter]
    refine length_filterMap_le_one (hg.apart.imp fun hne hfirst hsecond => hne ?_)
    rw [Option.isSome_guard] at hfirst hsecond
    rw [hkey _ hfirst, hkey _ hsecond]
  · rw [if_neg hhyphens]
    have hshort : ¬separatorWord <+: w := fun h => hhyphens (List.isPrefixOf_iff_prefix.mpr h)
    have hsome : ∀ named : Text × OptionRule σ,
        (if named.1 = w.take 2 then some (Word.option w named.2 named.1 (some (w.drop 2)))
          else if w.isPrefixOf named.1 then some (.option w named.2 named.1 none) else none).isSome = true →
        named.1 = w.take 2 ∨ w <+: named.1 := by
      intro named h
      split at h
      · exact .inl ‹_›
      · split at h
        · exact .inr (List.isPrefixOf_iff_prefix.mp ‹_›)
        · contradiction
    refine length_filterMap_le_one (hg.apart.imp_of_mem fun ha hb hne hfirst hsecond => hne ?_)
    rw [hg.take_three_of_short hlong hshort ha (hsome _ hfirst),
      hg.take_three_of_short hlong hshort hb (hsome _ hsecond)]

/-! ## All words -/

theorem eq_option_of_mem_candidates {w : Text} {word : Word σ} (h : word ∈ g.candidates w) :
    ∃ rule name argument, word = .option w rule name argument := by
  unfold candidates at h
  split at h
  · obtain ⟨named, -, rfl⟩ := List.mem_map.mp h
    exact ⟨_, _, _, rfl⟩
  · obtain ⟨named, -, hword⟩ := List.mem_filterMap.mp h
    dsimp only at hword
    split at hword
    · exact ⟨_, _, _, (Option.some.inj hword).symm⟩
    · split at hword
      · exact ⟨_, _, _, (Option.some.inj hword).symm⟩
      · contradiction

/-- What a word is read as. It is only refused if it may stand for several options, and it is only taken for no option
if it cannot stand for any. -/
theorem readWord_cases (g : Grammar σ) (w : Text) :
    (∃ word, g.readWord w = .ok word ∧ word.written = w ∧
      (word = .plain w → w.head? ≠ some '-' ∨ w.length = 1 ∨ g.candidates w = [])) ∨
    2 ≤ w.length ∧ 2 ≤ (g.candidates w).length ∧ ∃ complaint, g.readWord w = .error complaint := by
  by_cases hhead : w.head? = some '-'
  · unfold readWord
    rw [if_neg (Decidable.not_not.mpr hhead)]
    split
    · exact .inl ⟨_, rfl, rfl, nofun⟩
    · by_cases hone : w.length = 1
      · exact .inl ⟨_, if_pos hone, rfl, fun _ => .inr (.inl hone)⟩
      · rw [if_neg hone]
        dsimp only
        split
        · exact .inl ⟨_, rfl, rfl, nofun⟩
        · have hlong : 2 ≤ w.length := by
            cases w with
            | nil => contradiction
            | cons c rest =>
                rw [List.length_cons] at hone ⊢
                omega
          rcases hwords : g.candidates w with _ | ⟨word, _ | ⟨other, many⟩⟩
          · dsimp only
            split
            · exact .inl ⟨_, rfl, rfl, fun _ => .inr (.inr rfl)⟩
            · exact .inl ⟨_, rfl, rfl, nofun⟩
          · obtain ⟨rule, name, argument, rfl⟩ := eq_option_of_mem_candidates (hwords ▸ List.mem_cons_self)
            exact .inl ⟨_, rfl, rfl, nofun⟩
          · exact .inr ⟨hlong, Nat.le_add_left 2 many.length, _, rfl⟩
  · exact .inl ⟨_, readWord_of_head hhead, rfl, fun _ => .inl hhead⟩

theorem exists_readWord (hg : g.TellsApart) {w : Text} (hfront : Text.upTo '=' w ≠ separatorWord) :
    ∃ word, g.readWord w = .ok word ∧ word.written = w := by
  rcases readWord_cases g w with ⟨word, hread, hwritten, -⟩ | ⟨hlong, hmany, -⟩
  · exact ⟨word, hread, hwritten⟩
  · have hfew := length_candidates_le_one hg hlong hfront
    omega

theorem readWords_cons {w : Text} {rest : List Text} {word : Word σ} {words : List (Word σ)} (hw : w ≠ separatorWord)
    (hword : g.readWord w = .ok word) (hwords : g.readWords rest = .ok words) :
    g.readWords (w :: rest) = .ok (word :: words) := by
  rw [readWords, if_neg hw, hword, hwords]
  rfl

/-- Words of which none is a pair of hyphens with or without an equals sign. -/
theorem exists_readWords (hg : g.TellsApart) {arguments : List Text}
    (h : ∀ w ∈ arguments, Text.upTo '=' w ≠ separatorWord) :
    ∃ words, g.readWords arguments = .ok words ∧ words.map Word.written = arguments := by
  induction arguments with
  | nil => exact ⟨[], rfl, rfl⟩
  | cons w rest ih =>
      have hw : w ≠ separatorWord := by
        rintro rfl
        exact h _ List.mem_cons_self (by decide)
      obtain ⟨word, hword, hwritten⟩ := exists_readWord hg (h w List.mem_cons_self)
      obtain ⟨words, hwords, hrest⟩ := ih fun other hother => h other (List.mem_cons_of_mem w hother)
      exact ⟨word :: words, readWords_cons hw hword hwords, by rw [List.map_cons, hwritten, hrest]⟩

/-! ## Words that stand for themselves -/

/-- A word that stands for itself: no option, and no separator. -/
def IsOperand (g : Grammar σ) (w : Text) : Prop :=
  g.readWord w = .ok (.plain w)

theorem isOperand_of_head {w : Text} (h : w.head? ≠ some '-') : g.IsOperand w :=
  readWord_of_head h

/-- A pair of hyphens begins every long name. -/
theorem candidates_ne_nil {w : Text} (hfront : Text.upTo '=' w = separatorWord)
    (hlong : ∃ named ∈ g.named, separatorWord <+: named.1) : g.candidates w ≠ [] := by
  have hhyphens : separatorWord <+: w := hfront ▸ List.takeWhile_prefix _
  obtain ⟨named, hnamed, hbegun⟩ := hlong
  have hmem : named ∈ g.named.filter fun named => (Text.upTo '=' w).isPrefixOf named.1 := by
    rw [hfront]
    exact List.mem_filter.mpr ⟨hnamed, List.isPrefixOf_iff_prefix.mpr hbegun⟩
  unfold candidates
  rw [if_pos (by exact List.isPrefixOf_iff_prefix.mpr hhyphens)]
  exact List.ne_nil_of_mem (List.mem_map_of_mem hmem)

theorem IsOperand.front_ne {w : Text} (h : g.IsOperand w) (hlong : ∃ named ∈ g.named, separatorWord <+: named.1) :
    Text.upTo '=' w ≠ separatorWord := by
  intro hfront
  have hcandidates := candidates_ne_nil hfront hlong
  obtain ⟨rest, rfl⟩ : separatorWord <+: w := hfront ▸ List.takeWhile_prefix _
  rcases readWord_cases g (separatorWord ++ rest) with ⟨word, hword, -, hplain⟩ | ⟨-, -, complaint, herror⟩
  · obtain rfl := Except.ok.inj (hword.symm.trans h)
    rcases hplain rfl with hhead | hone | hnone
    · exact hhead rfl
    · rw [List.length_append] at hone
      have hpair : separatorWord.length = 2 := rfl
      omega
    · exact hcandidates hnone
  · exact nomatch herror.symm.trans h

theorem IsOperand.ne_separatorWord {w : Text} (h : g.IsOperand w)
    (hlong : ∃ named ∈ g.named, separatorWord <+: named.1) : w ≠ separatorWord := by
  rintro rfl
  exact h.front_ne hlong (by decide)

theorem find?_eq_none {w : Text} (h : ∀ named ∈ g.named, named.1 ≠ w) : g.find? w = none := by
  have hnone : g.named.find? (·.1 == w) = none :=
    List.find?_eq_none.mpr fun named hnamed heq => h named hnamed (beq_iff_eq.mp heq)
  rw [find?, hnone]
  rfl

/-- A single hyphen and a character that no name has there begin no option. -/
theorem candidates_eq_nil {d : Char} (hd : d ≠ '-') (rest : Text)
    (h : ∀ named ∈ g.named, ∀ behind, named.1 ≠ '-' :: d :: behind) : g.candidates ('-' :: d :: rest) = [] := by
  have hhyphens : ¬['-', '-'].isPrefixOf ('-' :: d :: rest) = true := by
    intro hprefix
    obtain ⟨behind, hbehind⟩ := List.isPrefixOf_iff_prefix.mp hprefix
    exact hd (List.cons.inj (List.cons.inj hbehind).2).1.symm
  unfold candidates
  rw [if_neg hhyphens]
  refine List.filterMap_eq_nil_iff.mpr fun named hnamed => ?_
  have hbegun : ¬('-' :: d :: rest).isPrefixOf named.1 = true := by
    intro hprefix
    obtain ⟨behind, hbehind⟩ := List.isPrefixOf_iff_prefix.mp hprefix
    exact h named hnamed (rest ++ behind) hbehind.symm
  exact (if_neg (h named hnamed [])).trans (if_neg hbegun)

theorem isNegativeNumber_minus {digits : Text} (hne : digits ≠ []) (hdigits : ∀ c ∈ digits, Text.isDigit c = true) :
    isNegativeNumber ('-' :: digits) = true := by
  have hfeed : digits.getLast? ≠ some '\n' := fun h => absurd (hdigits '\n' (List.mem_of_getLast? h)) (by decide)
  have hall : digits.all Text.isDigit = true := List.all_eq_true.mpr hdigits
  have hnonempty : digits.isEmpty = false := List.isEmpty_eq_false_iff.mpr hne
  simp only [isNegativeNumber, if_neg hfeed, hall, hnonempty, Bool.not_false, Bool.and_true, Bool.true_or]

/-- Where no name begins like a negative number, such a number stands for itself. -/
theorem isOperand_minus {digits : Text} (hne : digits ≠ []) (hdigits : ∀ c ∈ digits, Text.isDigit c = true)
    (hnames : ∀ named ∈ g.named, named.1[1]?.any Text.isDigit = false) : g.IsOperand ('-' :: digits) := by
  have hnumber := isNegativeNumber_minus hne hdigits
  obtain ⟨d, rest, rfl⟩ := List.exists_cons_of_ne_nil hne
  have hother : ∀ named ∈ g.named, ∀ behind, named.1 ≠ '-' :: d :: behind := by
    intro named hnamed behind heq
    have hfalse := hnames named hnamed
    rw [heq, List.getElem?_cons_succ, List.getElem?_cons_zero, Option.any_some, hdigits d List.mem_cons_self] at hfalse
    contradiction
  have hequals : '=' ∉ '-' :: d :: rest := by
    intro h
    rcases List.mem_cons.mp h with h | h
    · contradiction
    · exact absurd (hdigits '=' h) (by decide)
  have hhyphen : d ≠ '-' := by
    rintro rfl
    exact absurd (hdigits '-' List.mem_cons_self) (by decide)
  have hhead : ('-' :: d :: rest).head? = some '-' := rfl
  have hlong : ¬('-' :: d :: rest).length = 1 := by simp
  unfold IsOperand readWord
  rw [if_neg (Decidable.not_not.mpr hhead), find?_eq_none fun named hnamed => hother named hnamed rest]
  dsimp only
  rw [if_neg hlong]
  simp only [splitEquals, Text.after?_eq_none hequals, candidates_eq_nil hhyphen rest hother, hnumber, Bool.true_or,
    if_true]

end Grammar

end Accessibility.CommandLine
