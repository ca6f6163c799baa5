import Accessibility.Text.Search

/-! # The finds of a search

A search lists finds that do not overlap, each of them where the recogniser succeeds, and it passes over no place where
the recogniser succeeds unless an earlier find covers that place. -/

namespace Accessibility

/-- What a recogniser takes up is a front of the text and never empty. -/
def Recognizer.IsProper {α : Type} (r : Recognizer α) : Prop :=
  ∀ before t value raw, r before t = some (value, raw) → raw ≠ [] ∧ raw <+: t

namespace Text

variable {α : Type} {r : Recognizer α}

/-! ## The character before a place -/

/-- The character before what follows `front`, which itself starts after `before`. -/
def lastBefore : (before : Option Char) → (front : Text) → Option Char
  | before, [] => before
  | _, c :: front => lastBefore (some c) front

@[simp] theorem lastBefore_nil (before : Option Char) : lastBefore before [] = before := rfl

@[simp] theorem lastBefore_cons (before : Option Char) (c : Char) (front : Text) :
    lastBefore before (c :: front) = lastBefore (some c) front := rfl

@[simp] theorem lastBefore_append (before : Option Char) (front next : Text) :
    lastBefore before (front ++ next) = lastBefore (lastBefore before front) next := by
  induction front generalizing before with
  | nil => rfl
  | cons c front ih => exact ih (some c)

/-! ## One place of a search -/

@[simp] theorem occurrencesFrom_nil (r : Recognizer α) (covered : Nat) (before : Option Char) (place : Nat) :
    occurrencesFrom r covered before place [] = [] := by
  cases covered <;> rfl

@[simp] theorem occurrencesFrom_covered (r : Recognizer α) (covered : Nat) (before : Option Char) (place : Nat)
    (c : Char) (rest : Text) :
    occurrencesFrom r (covered + 1) before place (c :: rest) =
      occurrencesFrom r covered (some c) (place + 1) rest := rfl

theorem occurrencesFrom_of_none {before : Option Char} {c : Char} {rest : Text}
    (h : r before (c :: rest) = none) (place : Nat) :
    occurrencesFrom r 0 before place (c :: rest) = occurrencesFrom r 0 (some c) (place + 1) rest := by
  simp only [occurrencesFrom, h]

theorem occurrencesFrom_of_some {before : Option Char} {c : Char} {rest : Text} {value : α} {raw : Text}
    (h : r before (c :: rest) = some (value, raw)) (place : Nat) :
    occurrencesFrom r 0 before place (c :: rest) =
      { value, raw, start := place } :: occurrencesFrom r (raw.length - 1) (some c) (place + 1) rest := by
  simp only [occurrencesFrom, h]

/-! ## Longer stretches -/

/-- What an earlier find covers is passed over. -/
theorem occurrencesFrom_length_append (r : Recognizer α) (before : Option Char) (place : Nat) (front rest : Text) :
    occurrencesFrom r front.length before place (front ++ rest) =
      occurrencesFrom r 0 (lastBefore before front) (place + front.length) rest := by
  induction front generalizing before place with
  | nil => simp
  | cons c front ih =>
      simp only [List.length_cons, List.cons_append, occurrencesFrom_covered, lastBefore_cons]
      rw [ih, Nat.add_assoc, Nat.add_comm 1]

/-- A find at the front is listed, and the search goes on behind it. -/
theorem occurrencesFrom_of_front {before : Option Char} {raw rest : Text} {value : α}
    (h : r before (raw ++ rest) = some (value, raw)) (hne : raw ≠ []) (place : Nat) :
    occurrencesFrom r 0 before place (raw ++ rest) =
      { value, raw, start := place } ::
        occurrencesFrom r 0 (lastBefore before raw) (place + raw.length) rest := by
  cases raw with
  | nil => exact absurd rfl hne
  | cons c raw =>
      rw [List.cons_append] at h ⊢
      rw [occurrencesFrom_of_some h, List.length_cons, Nat.add_sub_cancel,
        occurrencesFrom_length_append, lastBefore_cons, Nat.add_assoc, Nat.add_comm 1]

/-- Nothing is recognised at any place of `front` when `rest` follows it. -/
def Quiet (r : Recognizer α) (before : Option Char) (front rest : Text) : Prop :=
  ∀ passed coming, front = passed ++ coming → coming ≠ [] →
    r (lastBefore before passed) (coming ++ rest) = none

theorem quiet_nil (r : Recognizer α) (before : Option Char) (rest : Text) : Quiet r before [] rest := by
  intro passed coming h hne
  exact absurd (List.append_eq_nil_iff.mp h.symm).2 hne

theorem quiet_cons_iff {before : Option Char} {c : Char} {front rest : Text} :
    Quiet r before (c :: front) rest ↔
      r before (c :: front ++ rest) = none ∧ Quiet r (some c) front rest := by
  constructor
  · intro h
    refine ⟨h [] (c :: front) rfl (by simp), ?_⟩
    rintro passed coming rfl hne
    exact h (c :: passed) coming rfl hne
  · rintro ⟨hc, hrest⟩ passed coming h hne
    cases passed with
    | nil =>
        rw [List.nil_append] at h
        subst h
        exact hc
    | cons d passed =>
        rw [List.cons_append, List.cons.injEq] at h
        obtain ⟨rfl, h⟩ := h
        exact hrest passed coming h hne

theorem Quiet.append {before : Option Char} {front next rest : Text} (hf : Quiet r before front (next ++ rest))
    (hn : Quiet r (lastBefore before front) next rest) : Quiet r before (front ++ next) rest := by
  induction front generalizing before with
  | nil => exact hn
  | cons c front ih =>
      obtain ⟨hc, hf⟩ := quiet_cons_iff.mp hf
      refine quiet_cons_iff.mpr ⟨?_, ih hf hn⟩
      simpa [List.append_assoc] using hc

/-- A quiet stretch has no finds. -/
theorem occurrencesFrom_of_quiet {before : Option Char} {front rest : Text} (h : Quiet r before front rest)
    (place : Nat) :
    occurrencesFrom r 0 before place (front ++ rest) =
      occurrencesFrom r 0 (lastBefore before front) (place + front.length) rest := by
  induction front generalizing before place with
  | nil => simp
  | cons c front ih =>
      obtain ⟨hc, hfront⟩ := quiet_cons_iff.mp h
      rw [List.cons_append] at hc ⊢
      rw [occurrencesFrom_of_none hc, ih hfront, List.length_cons, lastBefore_cons, Nat.add_assoc,
        Nat.add_comm 1]

/-! ## Texts written piece by piece -/

/-- The finds in `front`, by its place, when `rest` follows it. None of them reaches into `rest`. -/
def Yields (r : Recognizer α) (before : Option Char) (front rest : Text) (found : Nat → List (Occurrence α)) :
    Prop :=
  ∀ place, occurrencesFrom r 0 before place (front ++ rest) =
    found place ++ occurrencesFrom r 0 (lastBefore before front) (place + front.length) rest

theorem Quiet.yields {before : Option Char} {front rest : Text} (h : Quiet r before front rest) :
    Yields r before front rest fun _ => [] :=
  fun place => occurrencesFrom_of_quiet h place

theorem yields_of_front {before : Option Char} {raw rest : Text} {value : α}
    (h : r before (raw ++ rest) = some (value, raw)) (hne : raw ≠ []) :
    Yields r before raw rest fun place => [{ value, raw, start := place }] :=
  fun place => occurrencesFrom_of_front h hne place

theorem Yields.append {before : Option Char} {front next rest : Text} {found coming : Nat → List (Occurrence α)}
    (hf : Yields r before front (next ++ rest) found) (hn : Yields r (lastBefore before front) next rest coming) :
    Yields r before (front ++ next) rest fun place => found place ++ coming (place + front.length) := by
  intro place
  rw [List.append_assoc, hf place, hn (place + front.length)]
  simp [Nat.add_assoc]

variable {ι : Type}

/-- The pieces of a text that starts at a place, each with its own place. -/
def placed (write : ι → Text) : Nat → List ι → List (ι × Nat)
  | _, [] => []
  | place, piece :: pieces => (piece, place) :: placed write (place + (write piece).length) pieces

/-- The values of the finds of all pieces, when those of a piece do not depend on its place. -/
theorem map_value_placed {found : ι → Nat → List (Occurrence α)} {values : ι → List α}
    (h : ∀ piece place, (found piece place).map (·.value) = values piece) (write : ι → Text) (place : Nat)
    (pieces : List ι) :
    ((placed write place pieces).flatMap fun p => found p.1 p.2).map (·.value) = pieces.flatMap values := by
  induction pieces generalizing place with
  | nil => rfl
  | cons piece pieces ih =>
      rw [placed, List.flatMap_cons, List.map_append, h, ih, List.flatMap_cons]

/-- When each piece yields its own finds whatever pieces follow it, a text yields the finds of its pieces. -/
theorem yields_flatMap {write : ι → Text} {found : ι → Nat → List (Occurrence α)} {rest : Text}
    (h : ∀ piece (later : List ι) before,
      Yields r before (write piece) (later.flatMap write ++ rest) (found piece))
    (pieces : List ι) (before : Option Char) :
    Yields r before (pieces.flatMap write) rest fun place =>
      (placed write place pieces).flatMap fun p => found p.1 p.2 := by
  induction pieces generalizing before with
  | nil => exact (quiet_nil r before rest).yields
  | cons piece pieces ih => exact (h piece pieces before).append (ih (lastBefore before (write piece)))

/-! ## Every find is recognised where it starts -/

theorem exists_of_mem_occurrencesFrom {covered : Nat} {before : Option Char} {place : Nat} {t : Text}
    {o : Occurrence α} (h : o ∈ occurrencesFrom r covered before place t) :
    ∃ front rest, t = front ++ rest ∧ covered ≤ front.length ∧ o.start = place + front.length ∧
      r (lastBefore before front) rest = some (o.value, o.raw) := by
  induction t generalizing covered before place with
  | nil => simp at h
  | cons c t ih =>
      cases covered with
      | succ covered =>
          obtain ⟨front, rest, rfl, hcov, hstart, hr⟩ := ih h
          exact ⟨c :: front, rest, rfl, by simpa using hcov, by simp [hstart]; omega, hr⟩
      | zero =>
          cases hr : r before (c :: t) with
          | none =>
              rw [occurrencesFrom_of_none hr] at h
              obtain ⟨front, rest, rfl, -, hstart, hr⟩ := ih h
              exact ⟨c :: front, rest, rfl, Nat.zero_le _, by simp [hstart]; omega, hr⟩
          | some found =>
              obtain ⟨value, raw⟩ := found
              rw [occurrencesFrom_of_some hr] at h
              rcases List.mem_cons.mp h with rfl | h
              · exact ⟨[], c :: t, rfl, Nat.le_refl _, rfl, hr⟩
              · obtain ⟨front, rest, rfl, -, hstart, hr⟩ := ih h
                exact ⟨c :: front, rest, rfl, Nat.zero_le _, by simp [hstart]; omega, hr⟩

theorem exists_of_mem_occurrences {t : Text} {o : Occurrence α} (h : o ∈ occurrences r t) :
    ∃ front rest, t = front ++ rest ∧ o.start = front.length ∧
      r (lastBefore none front) rest = some (o.value, o.raw) := by
  obtain ⟨front, rest, ht, -, hstart, hr⟩ := exists_of_mem_occurrencesFrom h
  exact ⟨front, rest, ht, by simpa using hstart, hr⟩

/-! ## Finds do not overlap -/

theorem occurrencesFrom_pairwise (hp : r.IsProper) (covered : Nat) (before : Option Char) (place : Nat) (t : Text) :
    (occurrencesFrom r covered before place t).Pairwise fun a b => a.stop ≤ b.start := by
  induction t generalizing covered before place with
  | nil => simp
  | cons c t ih =>
      cases covered with
      | succ covered => exact ih covered (some c) (place + 1)
      | zero =>
          cases hr : r before (c :: t) with
          | none =>
              rw [occurrencesFrom_of_none hr]
              exact ih 0 (some c) (place + 1)
          | some found =>
              obtain ⟨value, raw⟩ := found
              rw [occurrencesFrom_of_some hr]
              refine List.pairwise_cons.mpr ⟨?_, ih (raw.length - 1) (some c) (place + 1)⟩
              intro o ho
              obtain ⟨front, rest, -, hcov, hstart, -⟩ := exists_of_mem_occurrencesFrom ho
              have hpos := List.length_pos_iff.mpr (hp _ _ _ _ hr).1
              simp only [Occurrence.stop]
              omega

theorem occurrences_pairwise (hp : r.IsProper) (t : Text) :
    (occurrences r t).Pairwise fun a b => a.stop ≤ b.start :=
  occurrencesFrom_pairwise hp 0 none 0 t

theorem start_lt_stop_of_mem (hp : r.IsProper) {t : Text} {o : Occurrence α} (h : o ∈ occurrences r t) :
    o.start < o.stop := by
  obtain ⟨front, rest, -, -, hr⟩ := exists_of_mem_occurrences h
  have hpos := List.length_pos_iff.mpr (hp _ _ _ _ hr).1
  simp only [Occurrence.stop]
  omega

theorem occurrences_pairwise_start (hp : r.IsProper) (t : Text) :
    (occurrences r t).Pairwise fun a b => a.start < b.start := by
  refine (occurrences_pairwise hp t).imp_of_mem ?_
  intro a b ha _ hab
  exact Nat.lt_of_lt_of_le (start_lt_stop_of_mem hp ha) hab

/-- Of two finds, the one that starts first ends before the other starts. -/
theorem stop_le_start_of_mem (hp : r.IsProper) {t : Text} {a b : Occurrence α} (ha : a ∈ occurrences r t)
    (hb : b ∈ occurrences r t) (h : a.start < b.start) : a.stop ≤ b.start := by
  have hpair := List.pairwise_iff_getElem.mp (occurrences_pairwise hp t)
  obtain ⟨i, hi, rfl⟩ := List.mem_iff_getElem.mp ha
  obtain ⟨j, hj, rfl⟩ := List.mem_iff_getElem.mp hb
  rcases Nat.lt_trichotomy i j with hij | rfl | hij
  · exact hpair i j hi hj hij
  · exact absurd h (Nat.lt_irrefl _)
  · have hstop := hpair j i hj hi hij
    have := start_lt_stop_of_mem hp hb
    omega

/-! ## No recognised place is lost -/

theorem exists_covering_of_recognized (hp : r.IsProper) {before : Option Char} {front rest : Text}
    {found : α × Text} (hr : r (lastBefore before front) rest = some found) (covered place : Nat)
    (hcov : covered ≤ front.length) :
    ∃ o ∈ occurrencesFrom r covered before place (front ++ rest),
      o.start ≤ place + front.length ∧ place + front.length < o.stop := by
  induction front generalizing covered before place with
  | nil =>
      obtain ⟨value, raw⟩ := found
      obtain ⟨hne, hraw⟩ := hp _ _ _ _ hr
      obtain rfl : covered = 0 := Nat.le_zero.mp hcov
      cases rest with
      | nil => exact absurd (List.prefix_nil.mp hraw) hne
      | cons c rest =>
          refine ⟨⟨value, raw, place⟩, ?_, Nat.le_refl _, ?_⟩
          · rw [lastBefore_nil] at hr
            rw [List.nil_append, occurrencesFrom_of_some hr]
            exact List.mem_cons_self
          · have := List.length_pos_iff.mpr hne
            simpa [Occurrence.stop] using this
  | cons c front ih =>
      have hnext : place + (c :: front).length = place + 1 + front.length := by
        simp only [List.length_cons]
        omega
      rw [hnext, List.cons_append]
      cases covered with
      | succ covered => exact ih hr covered (place + 1) (by simpa using hcov)
      | zero =>
          cases hc : r before (c :: (front ++ rest)) with
          | none =>
              rw [occurrencesFrom_of_none hc]
              exact ih hr 0 (place + 1) (Nat.zero_le _)
          | some first =>
              obtain ⟨value, raw⟩ := first
              rw [occurrencesFrom_of_some hc]
              -- The find made here either covers the place or ends before it.
              by_cases hlen : raw.length - 1 ≤ front.length
              · obtain ⟨o, ho, hcover⟩ := ih hr (raw.length - 1) (place + 1) hlen
                exact ⟨o, List.mem_cons_of_mem _ ho, hcover⟩
              · refine ⟨⟨value, raw, place⟩, List.mem_cons_self, ?_, ?_⟩
                · simp only
                  omega
                · simp only [Occurrence.stop]
                  omega

/-- A place where the recogniser succeeds is the start of a find or lies inside one. -/
theorem exists_mem_occurrences_of_recognized (hp : r.IsProper) {front rest : Text} {found : α × Text}
    (hr : r (lastBefore none front) rest = some found) :
    ∃ o ∈ occurrences r (front ++ rest), o.start ≤ front.length ∧ front.length < o.stop := by
  simpa [occurrences] using exists_covering_of_recognized hp hr 0 0 (Nat.zero_le _)

/-! ## Finds written anew -/

section Replacement

variable {write : α → Text}

@[simp] theorem replaceFrom_nil (r : Recognizer α) (write : α → Text) (covered : Nat) (before : Option Char) :
    replaceFrom r write covered before [] = [] := by
  cases covered <;> rfl

/-- What a find covers is left out. -/
theorem replaceFrom_length_append (r : Recognizer α) (write : α → Text) (before : Option Char) (front rest : Text) :
    replaceFrom r write front.length before (front ++ rest) = replaceFrom r write 0 (lastBefore before front) rest := by
  induction front generalizing before with
  | nil => rfl
  | cons c front ih => exact ih (some c)

theorem replaceFrom_of_front {before : Option Char} {raw rest : Text} {value : α}
    (h : r before (raw ++ rest) = some (value, raw)) (hne : raw ≠ []) :
    replaceFrom r write 0 before (raw ++ rest) =
      write value ++ replaceFrom r write 0 (lastBefore before raw) rest := by
  cases raw with
  | nil => exact absurd rfl hne
  | cons c raw =>
      rw [List.cons_append] at h ⊢
      simp only [replaceFrom, h, List.length_cons, Nat.add_sub_cancel]
      rw [replaceFrom_length_append, lastBefore_cons]

theorem replaceFrom_of_quiet {before : Option Char} {front rest : Text} (h : Quiet r before front rest) :
    replaceFrom r write 0 before (front ++ rest) = front ++ replaceFrom r write 0 (lastBefore before front) rest := by
  induction front generalizing before with
  | nil => rfl
  | cons c front ih =>
      obtain ⟨hc, hfront⟩ := quiet_cons_iff.mp h
      rw [List.cons_append] at hc ⊢
      simp only [replaceFrom, hc]
      rw [ih hfront, lastBefore_cons, List.cons_append]

end Replacement

end Text

end Accessibility
