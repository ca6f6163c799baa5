import Accessibility.Proofs.Text.Ascii
import Accessibility.Proofs.Text.Occurrences

/-! # Searching a concatenation

A reader that meets a character over which it cannot go does not see what follows. Where a recogniser is such a
reader at every place of a text, the finds in that text and a longer one behind it are those in the two texts, the
latter moved. -/

namespace Accessibility

variable {α : Type}

/-- A find that many characters further on. -/
def Occurrence.shift (n : Nat) (o : Occurrence α) : Occurrence α :=
  { o with start := o.start + n }

namespace Text

/-! ## Reading up to a bar -/

section Bar

variable {p : Char → Bool} {bar : Char} {t : Text}

theorem not_mem_takeWhile (hbar : p bar = false) (t : Text) : bar ∉ t.takeWhile p := by
  intro h
  rw [List.all_eq_true.mp List.all_takeWhile bar h] at hbar
  contradiction

theorem mem_dropWhile_of_mem (hbar : p bar = false) (h : bar ∈ t) : bar ∈ t.dropWhile p := by
  rw [← List.takeWhile_append_dropWhile (p := p) (l := t), List.mem_append] at h
  exact h.resolve_left (not_mem_takeWhile hbar t)

theorem mem_trim_of_mem (hbar : p bar = false) (h : bar ∈ t) : bar ∈ trim p t :=
  List.mem_reverse.mpr (mem_dropWhile_of_mem hbar (List.mem_reverse.mpr (mem_dropWhile_of_mem hbar h)))

theorem takeWhile_append_of_mem (hbar : p bar = false) (h : bar ∈ t) (rest : Text) :
    (t ++ rest).takeWhile p = t.takeWhile p := by
  rw [List.takeWhile_append, if_neg]
  intro hall
  have hwhole : t.takeWhile p = t := (List.takeWhile_prefix p).eq_of_length hall
  exact not_mem_takeWhile hbar t (hwhole.symm ▸ h)

theorem dropWhile_append_of_mem (hbar : p bar = false) (h : bar ∈ t) (rest : Text) :
    (t ++ rest).dropWhile p = t.dropWhile p ++ rest := by
  rw [List.dropWhile_append, if_neg]
  intro hnil
  have hmem := mem_dropWhile_of_mem hbar h
  rw [List.isEmpty_iff.mp hnil] at hmem
  exact List.not_mem_nil hmem

theorem exists_dropWhile_eq_cons (hbar : p bar = false) (h : bar ∈ t) : ∃ c rest, t.dropWhile p = c :: rest :=
  List.exists_cons_of_ne_nil (List.ne_nil_of_mem (mem_dropWhile_of_mem hbar h))

theorem upTo_of_not_mem (h : bar ∉ t) : upTo bar t = t := by
  simpa [upTo] using upTo_append h []

theorem upTo_append_of_mem (h : bar ∈ t) (rest : Text) : upTo bar (t ++ rest) = upTo bar t :=
  takeWhile_append_of_mem (by simp) h rest

theorem after?_append_of_mem (h : bar ∈ t) (rest : Text) : after? bar (t ++ rest) = (after? bar t).map (· ++ rest) := by
  obtain ⟨front, behind, rfl, hfront⟩ := List.eq_append_cons_of_mem h
  rw [List.append_assoc, List.cons_append, after?_append_cons hfront, after?_append_cons hfront, Option.map_some]

/-- A bar that stands for no character of a name stays behind when the name is taken. -/
theorem mem_rest_of_take? {name front rest : Text} (hname : ∀ c ∈ name, isPlain c = true) (hascii : bar.toNat < 128)
    (hbar : isPlain bar = false) (h : bar ∈ t) (htake : take? name t = some (front, rest)) : bar ∈ rest := by
  rw [(take?_eq_some_iff.mp htake).1, List.mem_append] at h
  rcases h with h | h
  · rw [isPlain_of_mem_take? hname htake h hascii] at hbar
    contradiction
  · exact h

theorem take?_append_of_mem {name : Text} (hname : ∀ c ∈ name, isPlain c = true) (hascii : bar.toNat < 128)
    (hbar : isPlain bar = false) (h : bar ∈ t) (rest : Text) :
    take? name (t ++ rest) = (take? name t).map (Prod.map id (· ++ rest)) := by
  induction name generalizing t with
  | nil => rfl
  | cons n name ih =>
      cases t with
      | nil => exact absurd h List.not_mem_nil
      | cons c t =>
          by_cases hc : agrees n c = true
          · have hmem : bar ∈ t := by
              refine (List.mem_cons.mp h).resolve_left ?_
              rintro rfl
              rw [isPlain_of_loose_eq (hname n (by simp)) hascii (beq_iff_eq.mp hc).symm] at hbar
              contradiction
            have hrest := ih (fun d hd => hname d (by simp [hd])) hmem
            simp only [List.cons_append, take?, hc, if_true, hrest, Option.map_map]
            rfl
          · simp [take?, hc]

end Bar

/-! ## Finds further on -/

variable {r : Recognizer α} {before : Option Char} {front rest : Text}

/-- The finds in a text do not depend on where it starts. -/
theorem occurrencesFrom_add (r : Recognizer α) (covered : Nat) (before : Option Char) (place n : Nat) (t : Text) :
    occurrencesFrom r covered before (place + n) t =
      (occurrencesFrom r covered before place t).map (Occurrence.shift n) := by
  induction t generalizing covered before place with
  | nil => simp
  | cons c t ih =>
      have hnext : place + n + 1 = place + 1 + n := Nat.add_right_comm place n 1
      cases covered with
      | succ covered => rw [occurrencesFrom_covered, occurrencesFrom_covered, hnext, ih]
      | zero =>
          cases hr : r before (c :: t) with
          | none => rw [occurrencesFrom_of_none hr, occurrencesFrom_of_none hr, hnext, ih]
          | some found =>
              obtain ⟨value, raw⟩ := found
              rw [occurrencesFrom_of_some hr, occurrencesFrom_of_some hr, hnext, ih]
              rfl

/-- The character before a text matters at its first place only. -/
theorem occurrencesFrom_congr {before' : Option Char} (h : ∀ t, r before t = r before' t) (place : Nat) (t : Text) :
    occurrencesFrom r 0 before place t = occurrencesFrom r 0 before' place t := by
  cases t with
  | nil => simp
  | cons c t => simp only [occurrencesFrom, h]

/-! ## Finds in two texts -/

/-- At every place of `front` the same is recognised whether `rest` follows or not. -/
def Unaffected (r : Recognizer α) (before : Option Char) (front rest : Text) : Prop :=
  ∀ passed coming, front = passed ++ coming → coming ≠ [] →
    r (lastBefore before passed) (coming ++ rest) = r (lastBefore before passed) coming

theorem Unaffected.head {c : Char} (h : Unaffected r before (c :: front) rest) :
    r before (c :: (front ++ rest)) = r before (c :: front) :=
  h [] (c :: front) rfl (by simp)

theorem Unaffected.tail {c : Char} (h : Unaffected r before (c :: front) rest) : Unaffected r (some c) front rest := by
  rintro passed coming rfl hne
  exact h (c :: passed) coming rfl hne

/-- No find in `front` reaches into `rest`, so the search starts anew there. -/
theorem Unaffected.occurrencesFrom_append (hp : r.IsProper) (h : Unaffected r before front rest) {covered : Nat}
    (hcov : covered ≤ front.length) (place : Nat) :
    occurrencesFrom r covered before place (front ++ rest) =
      occurrencesFrom r covered before place front ++
        occurrencesFrom r 0 (lastBefore before front) (place + front.length) rest := by
  induction front generalizing covered before place with
  | nil =>
      obtain rfl : covered = 0 := Nat.le_zero.mp hcov
      simp
  | cons c front ih =>
      have hplace : place + (c :: front).length = place + 1 + front.length := by
        simp only [List.length_cons]
        omega
      rw [hplace, lastBefore_cons, List.cons_append]
      cases covered with
      | succ covered => exact ih h.tail (Nat.le_of_succ_le_succ hcov) (place + 1)
      | zero =>
          have hhead := h.head
          cases hr : r before (c :: front) with
          | none =>
              rw [hr] at hhead
              rw [occurrencesFrom_of_none hhead, occurrencesFrom_of_none hr]
              exact ih h.tail (Nat.zero_le _) (place + 1)
          | some found =>
              obtain ⟨value, raw⟩ := found
              have hlength : raw.length ≤ front.length + 1 := (hp _ _ _ _ hr).2.length_le
              rw [hr] at hhead
              rw [occurrencesFrom_of_some hhead, occurrencesFrom_of_some hr,
                ih h.tail (Nat.sub_le_of_le_add hlength) (place + 1)]
              rfl

/-- The finds in a concatenation are those in its two parts. -/
theorem occurrences_append (hp : r.IsProper) (h : Unaffected r none front rest)
    (hseam : ∀ t, r (lastBefore none front) t = r none t) :
    occurrences r (front ++ rest) =
      occurrences r front ++ (occurrences r rest).map (Occurrence.shift front.length) := by
  rw [occurrences, h.occurrencesFrom_append hp (Nat.zero_le _), occurrencesFrom_congr hseam, occurrencesFrom_add]
  rfl

end Text

end Accessibility
