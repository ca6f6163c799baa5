import Accessibility.Proofs.Text.Ascii
import Accessibility.Text.Digit

/-! # Blanks

There are few blanks, and none of them is a digit or stands for a character of a name. A text without blanks at its
ends is its own stripped form. -/

namespace Accessibility.Text

/-- The code points of the blanks. -/
def blankPoints : List Nat := [
  9, 10, 11, 12, 13, 28, 29, 30, 31, 32, 133, 160, 5760, 8192, 8193, 8194, 8195, 8196, 8197, 8198, 8199, 8200, 8201,
  8202, 8232, 8233, 8239, 8287, 12288]

theorem toNat_mem_blankPoints {c : Char} (h : isBlank c = true) : c.toNat ∈ blankPoints := by
  simp [isBlank, CharSet.contains, blanks, CharSet.side] at h
  simp only [blankPoints, List.mem_cons, List.not_mem_nil, or_false]
  omega

/-- What holds of all blanks is checked one by one. -/
theorem of_isBlank {p : Char → Prop} (h : ∀ n ∈ blankPoints, p (Char.ofNat n)) {c : Char} (hc : isBlank c = true) :
    p c :=
  Char.ofNat_toNat c ▸ h c.toNat (toNat_mem_blankPoints hc)

/-- A blank stands for nothing in a name. -/
theorem isPlain_loose_of_isBlank {c : Char} (h : isBlank c = true) : isPlain (loose c) = false :=
  of_isBlank (p := fun c => isPlain (loose c) = false) (by decide) h

theorem isName_of_isBlank {c : Char} (h : isBlank c = true) : isName c = false :=
  of_isBlank (p := fun c => isName c = false) (by decide +kernel) h

theorem isDigit_of_isBlank {c : Char} (h : isBlank c = true) : isDigit c = false :=
  of_isBlank (p := fun c => isDigit c = false) (by decide) h

/-! ## Trimming -/

section Trim

variable {p : Char → Bool} {t : Text}

theorem dropWhile_eq_self (h : ∀ c ∈ t.head?, p c = false) : t.dropWhile p = t := by
  cases t with
  | nil => rfl
  | cons c t => exact List.dropWhile_cons_of_neg (by simp [h c rfl])

theorem takeWhile_eq_nil (h : ∀ c ∈ t.head?, p c = false) : t.takeWhile p = [] := by
  cases t with
  | nil => rfl
  | cons c t => exact List.takeWhile_cons_of_neg (by simp [h c rfl])

theorem head?_dropWhile {c : Char} (h : c ∈ (t.dropWhile p).head?) : p c = false := by
  have hhead := List.head?_dropWhile_not p t
  rw [Option.mem_def.mp h] at hhead
  exact hhead

theorem trim_eq_self (hhead : ∀ c ∈ t.head?, p c = false) (hlast : ∀ c ∈ t.getLast?, p c = false) :
    trim p t = t := by
  rw [trim, dropWhile_eq_self hhead, dropWhile_eq_self (by simpa using hlast), List.reverse_reverse]

theorem head?_trim {c : Char} (h : c ∈ (trim p t).head?) : p c = false := by
  -- What is left is a front of what is left after the first half.
  have hprefix : trim p t <+: t.dropWhile p := by
    rw [trim, ← List.reverse_suffix, List.reverse_reverse]
    exact List.dropWhile_suffix p
  obtain ⟨rest, hrest⟩ := hprefix
  refine head?_dropWhile (t := t) ?_
  rw [← hrest, List.head?_append, Option.mem_def.mp h]
  rfl

theorem getLast?_trim {c : Char} (h : c ∈ (trim p t).getLast?) : p c = false := by
  rw [trim, List.getLast?_reverse] at h
  exact head?_dropWhile h

theorem trim_trim (p : Char → Bool) (t : Text) : trim p (trim p t) = trim p t :=
  trim_eq_self (fun _ => head?_trim) fun _ => getLast?_trim

theorem trim_dropWhile (p : Char → Bool) (t : Text) : trim p (t.dropWhile p) = trim p t := by
  rw [trim, dropWhile_eq_self fun _ => head?_dropWhile, trim]

theorem strip_strip (t : Text) : strip (strip t) = strip t :=
  trim_trim isBlank t

end Trim

end Accessibility.Text
