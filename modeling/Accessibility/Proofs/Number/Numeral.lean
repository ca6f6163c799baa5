import Accessibility.Number.Numeral
import Accessibility.Proofs.Text.Blank

/-! # Reading the numbers that are written

An integer is written in decimal digits, with a minus before them if it is negative. It is read again unless it has too
many of them. -/

namespace Accessibility.Numeral

theorem readRun_of_overlong {run : Text} (h : Fault.digitLimit < run.length) :
    readRun run = .error (.tooManyDigits run.length) :=
  if_pos h

theorem exists_readRun {run : Text} (h : ¬Fault.digitLimit < run.length) : ∃ n, readRun run = .ok n :=
  ⟨_, if_neg h⟩

theorem readRun_eq_ok {run : Text} {n : Nat} (h : readRun run = .ok n) :
    ofDigits 10 (run.filterMap Text.digitValue?) = n := by
  unfold readRun at h
  split at h
  · contradiction
  · exact Except.ok.inj h

/-! ## Digits -/

theorem digitValue?_of_isDigit {c : Char} (h : c.isDigit = true) :
    Text.digitValue? c = some (c.toNat - '0'.toNat) := by
  obtain ⟨hlow, hhigh⟩ := Char.isDigit_iff_toNat.mp h
  have hzero : (decide (48 ≤ c.toNat) && decide (c.toNat < 48 + 10)) = true := by
    rw [Bool.and_eq_true, decide_eq_true_eq, decide_eq_true_eq]
    exact ⟨hlow, Nat.lt_of_le_of_lt hhigh (by decide)⟩
  have hfind : (Text.zeros.find? fun z => decide (z ≤ c.toNat) && decide (c.toNat < z + 10)) = some 48 := by
    unfold Text.zeros
    exact List.find?_cons_of_pos hzero
  rw [Text.digitValue?, hfind]
  rfl

theorem isBlank_of_isDigit {c : Char} (h : c.isDigit = true) : Text.isBlank c = false := by
  refine Bool.eq_false_iff.mpr fun hblank => ?_
  have hdigit := Text.isDigit_of_isBlank hblank
  rw [Text.isDigit, digitValue?_of_isDigit h] at hdigit
  contradiction

theorem digit?_of_isDigit {c : Char} (h : c.isDigit = true) : digit? 10 c = some (c.toNat - '0'.toNat) := by
  have hlt := Text.digitValue?_lt (digitValue?_of_isDigit h)
  simp only [digit?, digitValue?_of_isDigit h, Option.filter_some, hlt, decide_true, if_true]

theorem digits?_cons_cons (base : Nat) {c d : Char} (hd : d ≠ '_') (rest : Text) :
    digits? base (c :: d :: rest) = (digit? base c).bind fun v => (digits? base (d :: rest)).map (v :: ·) := by
  rw [digits?]
  · intro h
    contradiction
  · intro other h
    exact hd (List.cons.inj h).1

theorem digits?_of_isDigit {t : Text} (hne : t ≠ []) (h : ∀ c ∈ t, c.isDigit = true) :
    digits? 10 t = some (t.map fun c => c.toNat - '0'.toNat) := by
  induction t with
  | nil => contradiction
  | cons c rest ih =>
      have hc := digit?_of_isDigit (h c List.mem_cons_self)
      cases rest with
      | nil =>
          rw [digits?, hc]
          rfl
      | cons d rest =>
          have hrest := ih (List.cons_ne_nil d rest) fun e he => h e (List.mem_cons_of_mem c he)
          have hd : d ≠ '_' := by
            rintro rfl
            exact absurd (h '_' (List.mem_cons_of_mem c List.mem_cons_self)) (by decide)
          rw [digits?_cons_cons 10 hd, hc, hrest]
          rfl

theorem ofDigits_toDigits (n : Nat) :
    ofDigits 10 ((Nat.toDigits 10 n).map fun c => c.toNat - '0'.toNat) = n := by
  rw [ofDigits, List.foldl_map]
  exact Nat.ofDigitChars_ten_toDigits

/-! ## Integers as they are written -/

/-- An integer with no more digits than are read. -/
def IsReadable (n : Int) : Prop :=
  (Nat.toDigits 10 n.natAbs).length ≤ Fault.digitLimit

instance (n : Int) : Decidable (IsReadable n) :=
  inferInstanceAs (Decidable (_ ≤ _))

theorem isDigit_of_mem_toDigits {n : Nat} : ∀ c ∈ Nat.toDigits 10 n, c.isDigit = true :=
  fun _ hc => Nat.isDigit_of_mem_toDigits (by decide) (by decide) hc

theorem toList_toString (n : Int) :
    (toString n).toList = (if n < 0 then ['-'] else []) ++ Nat.toDigits 10 n.natAbs := by
  cases n with
  | ofNat m =>
      rw [if_neg (by exact Int.not_lt.mpr (Int.natCast_nonneg m)), List.nil_append]
      change m.repr.toList = _
      rw [Nat.repr_eq_ofList_toDigits, String.toList_ofList]
      rfl
  | negSucc m =>
      rw [if_pos (Int.negSucc_lt_zero m)]
      change ("-" ++ m.succ.repr).toList = ['-'] ++ Nat.toDigits 10 m.succ
      rw [String.toList_append, Nat.repr_eq_ofList_toDigits, String.toList_ofList, String.toList_ofList]

theorem isPadding_of_mem_toString {n : Int} {c : Char} (h : c ∈ (toString n).toList) : isPadding c = false := by
  rw [toList_toString] at h
  rw [isPadding, Bool.and_eq_false_imp]
  intro hblank
  rcases List.mem_append.mp h with h | h
  · split at h
    · exact absurd (List.mem_singleton.mp h ▸ hblank) (by decide)
    · contradiction
  · rw [isBlank_of_isDigit (isDigit_of_mem_toDigits c h)] at hblank
    contradiction

theorem takeSign_toString (n : Int) :
    takeSign (toString n).toList = (decide (n < 0), Nat.toDigits 10 n.natAbs) := by
  rw [toList_toString]
  by_cases hn : n < 0
  · rw [if_pos hn, decide_eq_true hn]
    rfl
  · rw [if_neg hn, decide_eq_false hn, List.nil_append]
    unfold takeSign
    have hdigits := isDigit_of_mem_toDigits (n := n.natAbs)
    split
    · rename_i hplus
      exact absurd (hdigits '+' (hplus ▸ List.mem_cons_self)) (by decide)
    · rename_i hminus
      exact absurd (hdigits '-' (hminus ▸ List.mem_cons_self)) (by decide)
    · rfl

theorem read?_toString {n : Int} (h : IsReadable n) : read? 10 (toString n).toList = some n := by
  have htrim : Text.trim isPadding (toString n).toList = (toString n).toList :=
    Text.trim_eq_self (fun c hc => isPadding_of_mem_toString (List.mem_of_head? hc))
      fun c hc => isPadding_of_mem_toString (List.mem_of_getLast? hc)
  have hdigits := digits?_of_isDigit (Nat.toDigits_ne_nil (n := n.natAbs)) isDigit_of_mem_toDigits
  simp only [read?, htrim, takeSign_toString, hdigits, ofDigits_toDigits, decide_eq_true_eq, List.length_map, true_and]
  rw [if_neg (Nat.not_lt.mpr h)]
  by_cases hn : n < 0
  · rw [if_pos hn]
    congr 1
    omega
  · rw [if_neg hn]
    congr 1
    omega

end Accessibility.Numeral
