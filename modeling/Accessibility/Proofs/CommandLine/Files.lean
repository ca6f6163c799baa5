import Accessibility.CommandLine.Files

/-! # Files with plain names -/

namespace Accessibility.CommandLine

/-- A letter, and letters, digits and dots behind it. -/
def IsPlainName (name : Text) : Prop :=
  ∃ c rest, name = c :: rest ∧ c.isAlpha = true ∧ ∀ d ∈ rest, (d.isAlphanum || d == '.') = true

namespace IsPlainName

variable {name : Text} (h : IsPlainName name)

include h

theorem not_mem {c : Char} (hc : c.isAlphanum = false) (hdot : c ≠ '.') : c ∉ name := by
  obtain ⟨d, rest, rfl, hd, hrest⟩ := h
  intro hmem
  rcases List.mem_cons.mp hmem with rfl | hmem
  · rw [Char.isAlphanum, hd] at hc
    contradiction
  · have hplain := hrest c hmem
    rw [hc, Bool.false_or, beq_iff_eq] at hplain
    exact hdot hplain

theorem head?_ne {c : Char} (hc : c.isAlpha = false) : name.head? ≠ some c := by
  obtain ⟨d, rest, rfl, hd, -⟩ := h
  rintro heq
  rw [Option.some.inj heq, hc] at hd
  contradiction

theorem isEmpty_eq : name.isEmpty = false := by
  obtain ⟨c, rest, rfl, -⟩ := h
  rfl

end IsPlainName

namespace Directory

/-- The directory has a file of the name, and its name is not too long. -/
structure Holds (d : Directory) (name : Text) (bytes : List UInt8) : Prop where
  content : d.content? [name] = some bytes
  not_directory : d.hasDirectory [name] = false
  not_too_long : (Utf8.encode name).length ≤ nameLimit

theorem names_of_plain {name : Text} (h : IsPlainName name) : names name = [name] := by
  have hslash : '/' ∉ name := h.not_mem (by decide) (by decide)
  refine List.splitOnP_eq_singleton fun c hc => ?_
  exact beq_false_of_ne fun heq => hslash (heq ▸ hc)

theorem follow_plain {d : Directory} {name : Text} {bytes : List UInt8} (hname : IsPlainName name)
    (h : d.Holds name bytes) : d.follow (.directory []) [name] = .ok (.file [name]) := by
  have hempty : name.isEmpty = false := hname.isEmpty_eq
  have hhead : name.head? ≠ some '.' := hname.head?_ne (by decide)
  have hdot : (name == ['.']) = false := beq_false_of_ne fun heq => hhead (congrArg List.head? heq)
  have hdots : (name == ['.', '.']) = false := beq_false_of_ne fun heq => hhead (congrArg List.head? heq)
  have hfound : (d.content? [name]).isSome = true := by rw [h.content]; rfl
  simp only [follow, hempty, hdot, hdots, Nat.not_lt.mpr h.not_too_long, List.nil_append, h.not_directory, hfound,
    Bool.or_self, Bool.false_eq_true, if_false, if_true]

/-- A file with a plain name is found and read. -/
theorem read_of_holds {d : Directory} {name : Text} {bytes : List UInt8} (hname : IsPlainName name)
    (h : d.Holds name bytes) : d.read name = .ok bytes := by
  have hnul : '\x00' ∉ name := hname.not_mem (by decide) (by decide)
  have hempty : name.isEmpty = false := hname.isEmpty_eq
  have hshort : ¬pathLimit < (Utf8.encode name).length :=
    Nat.not_lt.mpr (Nat.le_trans h.not_too_long (by decide))
  have hplace : d.place name = .ok (.file [name]) := by
    rw [place, if_neg hnul, hempty, if_neg Bool.false_ne_true, if_neg hshort, if_neg (hname.head?_ne (by decide)),
      names_of_plain hname, follow_plain hname h]
  rw [read, hplace]
  simp only [h.content, Option.getD_some]

end Directory

end Accessibility.CommandLine
