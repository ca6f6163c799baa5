import Accessibility.Console.Event
import Accessibility.Proofs.Console.Mark

/-! # Records that can be read

The console reads records one after the other, up to the first of which it complains. Records of which it does not
complain may be left out without a difference to the others. -/

namespace Accessibility.Console

/-- Without an opening bracket, no word can be taken for a tag. -/
theorem untagged_of_not_mem {t : Text} (h : '[' ∉ t) : Untagged t := by
  refine List.eq_nil_iff_forall_not_mem.mpr fun o ho => h ?_
  obtain ⟨front, rest, rfl, -, hr⟩ := Text.exists_of_mem_occurrences ho
  obtain ⟨n, -, hraw, ⟨c, inner, htag, -⟩, hfront⟩ := backslashedTag_eq_some_iff.mp hr
  have hbracket : '[' ∈ o.raw := by simp [hraw, htag]
  exact List.mem_append_right front (hfront.subset hbracket)

namespace Reader

variable (reader : Reader)

theorem firstComplaint?_append (records records' : List Journal.Record) :
    reader.firstComplaint? (records ++ records') =
      (reader.firstComplaint? records).or (reader.firstComplaint? records') :=
  List.findSome?_append

variable {reader} {records : List Journal.Record}

theorem firstComplaint?_eq_none_iff :
    reader.firstComplaint? records = none ↔ ∀ r ∈ records, reader.complaint? r.message = none :=
  List.findSome?_eq_none_iff

section

variable {keep : Journal.Record → Bool} (h : ∀ r ∈ records, keep r = false → reader.complaint? r.message = none)

include h

theorem firstComplaint?_filter : reader.firstComplaint? (records.filter keep) = reader.firstComplaint? records := by
  induction records with
  | nil => rfl
  | cons r records ih =>
      rw [List.forall_mem_cons] at h
      have hrest := ih h.2
      simp only [firstComplaint?] at hrest ⊢
      cases hkeep : keep r with
      | true => rw [List.filter_cons_of_pos hkeep, List.findSome?_cons, List.findSome?_cons, hrest]
      | false =>
          rw [List.filter_cons_of_neg (Bool.eq_false_iff.mp hkeep), List.findSome?_cons, h.1 hkeep, hrest]

theorem readable_filter : reader.readable (records.filter keep) = (reader.readable records).filter keep := by
  induction records with
  | nil => rfl
  | cons r records ih =>
      rw [List.forall_mem_cons] at h
      have hrest := ih h.2
      simp only [readable] at hrest ⊢
      cases hkeep : keep r with
      | true =>
          rw [List.filter_cons_of_pos hkeep, List.takeWhile_cons, List.takeWhile_cons, hrest]
          split
          · rw [List.filter_cons_of_pos hkeep]
          · rfl
      | false =>
          rw [List.filter_cons_of_neg (Bool.eq_false_iff.mp hkeep), List.takeWhile_cons_of_pos (by rw [h.1 hkeep]; rfl),
            List.filter_cons_of_neg (Bool.eq_false_iff.mp hkeep), hrest]

end

/-- A reader that complains where the first tag closes what no tag has opened. -/
def strict : Reader where
  complaint? message :=
    match (Mark.findAll message.toList).find? Mark.isActive with
    | some mark =>
      if mark.tag = "[/]".toList then some s!"closing tag '[/]' at position {mark.start} has nothing to close" else none
    | none => none
  complaint?_of_untagged h := by
    rw [Mark.findAll, h]
    rfl

example : strict.complaint? "Unrecognized color '[/]', using #000000" =
    some "closing tag '[/]' at position 20 has nothing to close" := by
  decide

end Reader

end Accessibility.Console
