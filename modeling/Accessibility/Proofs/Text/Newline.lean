import Accessibility.Text.Newline

/-! # Texts whose lines end in one way -/

namespace Accessibility.Text

theorem unifyNewlines_eq_self {t : Text} (h : '\r' ∉ t) : unifyNewlines t = t := by
  induction t with
  | nil => rfl
  | cons c rest ih =>
      rw [List.mem_cons, not_or] at h
      have hc : c ≠ '\r' := fun heq => h.1 heq.symm
      unfold unifyNewlines
      split
      · contradiction
      · exact absurd (List.cons.inj ‹_›).1 hc
      · rename_i heq
        obtain ⟨rfl, rfl⟩ := List.cons.inj heq
        rw [if_neg hc, ih h.2]

end Accessibility.Text
