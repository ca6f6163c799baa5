import Accessibility.Proofs.Text.Occurrences
import Mathlib.Data.List.Sort

/-! # Places in a text

A place counts the characters before it. Stretches that are read at places of a text are listed in order, without
overlaps and with no place left out in one way only. -/

namespace Accessibility.Text

/-- What stands from place `i` up to place `j`. -/
def slice (t : Text) (i j : Nat) : Text :=
  (t.drop i).take (j - i)

/-- The first place from `i` on where `c` stands. -/
structure FirstAt (c : Char) (t : Text) (i e : Nat) : Prop where
  le : i ≤ e
  here : t[e]? = some c
  not_before : ∀ k, i ≤ k → k < e → t[k]? ≠ some c

theorem drop_eq_cons_iff {t rest : Text} {c : Char} {p : Nat} :
    t.drop p = c :: rest ↔ t[p]? = some c ∧ t.drop (p + 1) = rest := by
  rw [← List.head?_drop, ← List.tail_drop]
  cases t.drop p <;> simp

theorem slice_of_drop {t part rest : Text} {i j : Nat} (h : t.drop i = part ++ rest) (hj : j = i + part.length) :
    t.slice i j = part := by
  rw [slice, h, hj, Nat.add_sub_cancel_left, List.take_left]

theorem drop_add_of_drop {t part rest : Text} {i j : Nat} (h : t.drop i = part ++ rest) (hj : j = i + part.length) :
    t.drop j = rest := by
  rw [hj, ← List.drop_drop, h, List.drop_left]

theorem firstAt_iff {c : Char} {t : Text} {i e : Nat} :
    FirstAt c t i e ↔ ∃ inner rest, t.drop i = inner ++ c :: rest ∧ c ∉ inner ∧ e = i + inner.length := by
  constructor
  · rintro ⟨hle, hhere, hbefore⟩
    have hlt : e < t.length := (List.getElem?_eq_some_iff.mp hhere).1
    have hsplit : t.drop i = t.slice i e ++ t.drop e := by
      have hdrop : t.drop e = (t.drop i).drop (e - i) := by rw [List.drop_drop, Nat.add_sub_cancel' hle]
      rw [slice, hdrop, List.take_append_drop]
    have hlength : (t.slice i e).length = e - i := by
      rw [slice, List.length_take, List.length_drop]
      omega
    refine ⟨t.slice i e, t.drop (e + 1), ?_, ?_, ?_⟩
    · rw [hsplit, drop_eq_cons_iff.mpr ⟨hhere, rfl⟩]
    · intro hmem
      obtain ⟨k, hk, hget⟩ := List.mem_iff_getElem.mp hmem
      refine hbefore (i + k) (Nat.le_add_right i k) (by omega) ?_
      rw [← List.getElem?_drop, hsplit, List.getElem?_append_left hk, List.getElem?_eq_getElem hk, hget]
    · omega
  · rintro ⟨inner, rest, hdrop, hinner, rfl⟩
    refine ⟨Nat.le_add_right i _, ?_, ?_⟩
    · rw [← List.getElem?_drop, hdrop, List.getElem?_append_right (Nat.le_refl _), Nat.sub_self]
      rfl
    · intro k hik hk hget
      obtain ⟨n, rfl⟩ := Nat.exists_eq_add_of_le hik
      rw [← List.getElem?_drop, hdrop, List.getElem?_append_left (by omega)] at hget
      exact hinner (List.mem_of_getElem? hget)

theorem firstAt_iff_upTo {c : Char} {t : Text} {i e : Nat} :
    FirstAt c t i e ↔ c ∈ t.drop i ∧ e = i + (upTo c (t.drop i)).length := by
  rw [firstAt_iff]
  constructor
  · rintro ⟨inner, rest, hdrop, hinner, rfl⟩
    rw [hdrop, upTo_append_cons hinner]
    exact ⟨by simp, rfl⟩
  · rintro ⟨hmem, rfl⟩
    obtain ⟨inner, rest, hdrop, hinner⟩ := List.eq_append_cons_of_mem hmem
    exact ⟨inner, rest, hdrop, hinner, by rw [hdrop, upTo_append_cons hinner]⟩

theorem FirstAt.unique {c : Char} {t : Text} {i e e' : Nat} (h : FirstAt c t i e) (h' : FirstAt c t i e') : e = e' := by
  rcases Nat.lt_trichotomy e e' with hlt | heq | hlt
  · exact absurd h.here (h'.not_before e h.le hlt)
  · exact heq
  · exact absurd h'.here (h.not_before e' h'.le hlt)

/-- The recogniser succeeds where a find starts. -/
theorem recognized_of_mem_occurrences {α : Type} {r : Recognizer α} {t : Text} {o : Occurrence α}
    (h : o ∈ occurrences r t) : r (lastBefore none (t.take o.start)) (t.drop o.start) = some (o.value, o.raw) := by
  obtain ⟨front, rest, rfl, hstart, hr⟩ := exists_of_mem_occurrences h
  rwa [hstart, List.take_left, List.drop_left]

/-- A place where the recogniser succeeds is the start of a find or lies inside one. -/
theorem exists_mem_occurrences_drop {α : Type} {r : Recognizer α} (hp : r.IsProper) {t : Text} {p : Nat}
    {found : α × Text} (h : r (lastBefore none (t.take p)) (t.drop p) = some found) :
    ∃ o ∈ occurrences r t, o.start ≤ p ∧ p < o.stop := by
  have hlt : p < t.length := by
    by_contra hle
    rw [List.drop_eq_nil_of_le (Nat.le_of_not_lt hle)] at h
    obtain ⟨hne, hprefix⟩ := hp _ _ _ _ h
    exact hne (List.prefix_nil.mp hprefix)
  have hlength : (t.take p).length = p := List.length_take_of_le (Nat.le_of_lt hlt)
  have hcover := exists_mem_occurrences_of_recognized hp h
  rwa [List.take_append_drop, hlength] at hcover

theorem occurrences_apart {α : Type} {r : Recognizer α} (hp : r.IsProper) (t : Text) :
    (occurrences r t).Pairwise fun a b => a.start < b.start ∧ a.stop ≤ b.start :=
  (occurrences_pairwise_start hp t).and (occurrences_pairwise hp t)

/-! ## Lists of stretches -/

variable {α β : Type} {Good : α → Prop} {Begins : Nat → Prop} {start stop : α → Nat}

/-- Good stretches in order, none of which overlaps another. Every place where one could begin lies inside one of
them. -/
structure Cover (Good : α → Prop) (Begins : Nat → Prop) (start stop : α → Nat) (l : List α) : Prop where
  good : ∀ a ∈ l, Good a
  apart : l.Pairwise fun a b => start a < start b ∧ stop a ≤ start b
  covers : ∀ p, Begins p → ∃ b ∈ l, start b ≤ p ∧ p < stop b

/-- What a search finds is a cover, if nothing begins where the search does not succeed. -/
theorem Cover.of_occurrences {r : Recognizer β} (hp : r.IsProper) {t : Text} {place : Occurrence β → α}
    (hplace : ∀ o ∈ occurrences r t, start (place o) = o.start ∧ stop (place o) = o.stop)
    (hgood : ∀ o ∈ occurrences r t, Good (place o))
    (hbegins : ∀ p, Begins p → ∃ found, r (lastBefore none (t.take p)) (t.drop p) = some found) :
    Cover Good Begins start stop ((occurrences r t).map place) where
  good := List.forall_mem_map.mpr hgood
  apart := by
    refine List.pairwise_map.mpr ((occurrences_apart hp t).imp_of_mem ?_)
    intro a b ha hb hab
    rw [(hplace a ha).1, (hplace a ha).2, (hplace b hb).1]
    exact hab
  covers := by
    intro p hpage
    obtain ⟨found, hfound⟩ := hbegins p hpage
    obtain ⟨o, ho, hle, hlt⟩ := exists_mem_occurrences_drop hp hfound
    exact ⟨_, List.mem_map_of_mem ho, (hplace o ho).1.symm ▸ hle, (hplace o ho).2.symm ▸ hlt⟩

/-- Where one of two members starts inside the other, they are the same. -/
theorem Cover.eq_of_inside {l : List α} (h : Cover Good Begins start stop l) {a b : α} (ha : a ∈ l) (hb : b ∈ l)
    (hle : start a ≤ start b) (hlt : start b < stop a) : a = b := by
  have hapart := List.pairwise_iff_getElem.mp h.apart
  obtain ⟨i, hi, rfl⟩ := List.mem_iff_getElem.mp ha
  obtain ⟨j, hj, rfl⟩ := List.mem_iff_getElem.mp hb
  rcases Nat.lt_trichotomy i j with hij | rfl | hij
  · have hstop := (hapart i j hi hj hij).2
    omega
  · rfl
  · have hstart := (hapart j i hj hi hij).1
    omega

section

variable (hbegins : ∀ a, Good a → Begins (start a)) (hinj : ∀ a b, Good a → Good b → start a = start b → a = b)

include hbegins hinj

/-- By induction on where a stretch starts: one that covers it starts earlier, and so does the one that covers that. -/
theorem Cover.subset {l l' : List α} (h : Cover Good Begins start stop l) (h' : Cover Good Begins start stop l') :
    l ⊆ l' := by
  suffices hall : ∀ n, ∀ a ∈ l, start a = n → a ∈ l' from fun a ha => hall (start a) a ha rfl
  intro n
  induction n using Nat.strong_induction_on with
  | h n ih =>
      rintro a ha rfl
      obtain ⟨b, hb, hba, hab⟩ := h'.covers _ (hbegins a (h.good a ha))
      rcases Nat.eq_or_lt_of_le hba with heq | hlt
      · exact hinj b a (h'.good b hb) (h.good a ha) heq ▸ hb
      · obtain ⟨c, hc, hcb, hbc⟩ := h.covers _ (hbegins b (h'.good b hb))
        have hc' : c ∈ l' := ih (start c) (Nat.lt_of_le_of_lt hcb hlt) c hc rfl
        obtain rfl : c = b := h'.eq_of_inside hc' hb hcb hbc
        exact h.eq_of_inside hc ha hba hab ▸ hc'

/-- There is one cover at most. -/
theorem Cover.unique {l l' : List α} (h : Cover Good Begins start stop l) (h' : Cover Good Begins start stop l') :
    l = l' := by
  have hasymm : Std.Asymm fun a b : α => start a < start b ∧ stop a ≤ start b :=
    ⟨fun a b hab hba => Nat.lt_asymm hab.1 hba.1⟩
  exact List.Subset.antisymm_of_pairwise h.apart h'.apart (h.subset hbegins hinj h') (h'.subset hbegins hinj h)

end

end Accessibility.Text
