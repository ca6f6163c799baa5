import Accessibility.Proofs.CommandLine.Run
import Accessibility.Proofs.Console.Reader

/-! # What a command records

Whatever is told and printed, a command records the same, at most twice. Only colours are recorded as they are written,
so that the console can read every other record. -/

namespace Accessibility

namespace Journal

theorem atLeast_append (threshold : Int) (records records' : List Record) :
    atLeast threshold (records ++ records') = atLeast threshold records ++ atLeast threshold records' :=
  List.filter_append ..

theorem level_of_mem_ofContrast {foreground background : Value} {r : Record}
    (h : r ∈ ofContrast foreground background) : r.level = .debug := by
  unfold ofContrast at h
  split at h
  · contradiction
  · exact (List.mem_append.mp h).elim level_of_mem_ofResolve level_of_mem_ofResolve

/-! ## Records without brackets -/

/-- A message without an opening bracket. -/
def IsBracketless (message : String) : Prop :=
  '[' ∉ message.toList

theorem isBracketless_append {message message' : String} :
    IsBracketless (message ++ message') ↔ IsBracketless message ∧ IsBracketless message' := by
  rw [IsBracketless, String.toList_append, List.mem_append, not_or]
  rfl

theorem isBracketless_toString (n : Nat) : IsBracketless (toString n) := by
  change '[' ∉ n.repr.toList
  rw [Nat.repr_eq_ofList_toDigits, String.toList_ofList]
  exact fun h => absurd (Numeral.isDigit_of_mem_toDigits '[' h) (by decide)

instance (message : String) : Decidable (IsBracketless message) :=
  inferInstanceAs (Decidable ('[' ∉ message.toList))

theorem isBracketless_of_mem_ofReport {subject : Audit.Subject} {page : Text} {r : Record}
    (h : r ∈ ofReport subject page) : IsBracketless r.message := by
  cases subject <;> simp only [ofReport] at h
  case aria =>
    rw [List.mem_singleton.mp h]
    simp only [auditRecord, isBracketless_append, isBracketless_toString, and_true]
    decide
  all_goals
    split at h
    · contradiction
    · rw [List.mem_singleton.mp h]
      simp only [auditRecord, isBracketless_append, isBracketless_toString, and_true]
      decide

theorem isBracketless_of_mem_ofAudit {page : Text} {r : Record} (h : r ∈ ofAudit page) : IsBracketless r.message := by
  rcases List.mem_append.mp h with h | h
  · obtain ⟨subject, -, hr⟩ := List.mem_flatMap.mp h
    exact isBracketless_of_mem_ofReport hr
  · rw [List.mem_singleton.mp h]
    simp only [auditRecord, isBracketless_append, isBracketless_toString, and_true]
    decide

theorem isBracketless_tag (a : Activity) : IsBracketless a.tag := by
  cases a <;> decide

/-- Only the check of declared colours records what it is given. -/
theorem isBracketless_of_mem_ofVerify {page : Text} {a : Activity} (ha : a ≠ .contrast) {r : Record}
    (h : r ∈ ofVerify page (.known a)) : IsBracketless r.message := by
  unfold ofVerify at h
  simp only [if_neg ha, List.nil_append] at h
  split at h
  · contradiction
  · rename_i v _
    rw [List.mem_singleton.mp h]
    simp only [exerciseRecord, isBracketless_append]
    refine ⟨⟨⟨by decide, isBracketless_tag a⟩, by decide⟩, ?_⟩
    cases v.passed <;> decide

end Journal

namespace CommandLine

open Console (Reader)

namespace Performance

theorem records_audit (quiet json : Bool) (failUnder : Option LeastScore) (page : Text) :
    (audit quiet json failUnder page).records = Journal.ofAudit page := by
  unfold audit
  dsimp only
  split <;> rfl

theorem records_verify (quiet json : Bool) (request : Activity.Request) (page : Text) :
    (verify quiet json request page).records = Journal.ofVerify page request := by
  unfold verify
  dsimp only
  split <;> rfl

/-- A contrast that is computed twice is recorded twice. -/
theorem records_contrast (json : Bool) (foreground background : Value) :
    let records := Journal.ofContrast foreground background
    (contrast json foreground background).records = records ∨
      (contrast json foreground background).records = records ++ records := by
  unfold contrast
  dsimp only
  split
  · exact .inl rfl
  · split
    · exact .inl rfl
    · split <;> exact .inr rfl

end Performance

theorem SourceFault.records_eq_nil (f : SourceFault) : f.performance.records = [] := by
  cases f with
  | interrupted => rfl
  | unreadable file f => cases f <;> rfl

namespace Command

/-- What a command records of a page. -/
def recorded : Command → Text → List Journal.Record
  | audit .., page => Journal.ofAudit page
  | verify _ request _, page => Journal.ofVerify page request
  | contrast foreground background _, _ => Journal.ofContrast foreground background

theorem records_perform (quiet : Bool) (c : Command) (page : Text) :
    (c.perform quiet page).records = c.recorded page ∨
      (c.perform quiet page).records = c.recorded page ++ c.recorded page := by
  cases c with
  | audit file json failUnder => exact .inl (Performance.records_audit quiet json failUnder page)
  | verify file request json => exact .inl (Performance.records_verify quiet json request page)
  | contrast foreground background json => exact Performance.records_contrast json foreground background

/-- What is recorded again is complained of already. -/
theorem firstComplaint?_records_perform (reader : Reader) (threshold : Int) (quiet : Bool) (c : Command) (page : Text) :
    reader.firstComplaint? (Journal.atLeast threshold (c.perform quiet page).records) =
      reader.firstComplaint? (Journal.atLeast threshold (c.recorded page)) := by
  rcases c.records_perform quiet page with h | h
  · rw [h]
  · rw [h, Journal.atLeast_append, Reader.firstComplaint?_append, Option.or_self]

theorem mem_recorded {c : Command} {quiet : Bool} {page : Text} {r : Journal.Record}
    (h : r ∈ (c.perform quiet page).records) : r ∈ c.recorded page := by
  rcases c.records_perform quiet page with heq | heq
  · exact heq ▸ h
  · exact (List.mem_append.mp (heq ▸ h)).elim id id

theorem exists_mem_recorded {c : Command} {w : World} {quiet : Bool} {r : Journal.Record}
    (h : r ∈ (c.performIn quiet w).records) : ∃ page, r ∈ c.recorded page := by
  unfold performIn at h
  split at h
  · exact ⟨[], mem_recorded h⟩
  · split at h
    · exact ⟨_, mem_recorded h⟩
    · rw [SourceFault.records_eq_nil] at h
      contradiction

theorem level_of_mem_recorded {c : Command} (hknown : ∀ file shown json, c ≠ .verify file (.unknown shown) json)
    {page : Text} {r : Journal.Record} (h : r ∈ c.recorded page) : r.level = .debug := by
  cases c with
  | audit file json failUnder => exact Journal.level_of_mem_ofAudit h
  | verify file request json =>
      cases request with
      | unknown shown => exact absurd rfl (hknown file shown json)
      | known a => exact Journal.level_of_mem_ofVerify h
  | contrast foreground background json => exact Journal.level_of_mem_ofContrast h

/-! ## What can be read -/

/-- The console can read every record of the lowest level. -/
def IsReadable (c : Command) (w : World) : Prop :=
  ∀ r ∈ (c.performIn false w).records, r.level = .debug → w.reader.complaint? r.message = none

/-- Whether the command resolves colours as they are written. -/
def resolvesColors : Command → Bool
  | contrast .. => true
  | verify _ request _ => request = .known .contrast
  | audit .. => false

theorem isReadable_of_not_resolvesColors {c : Command} (h : c.resolvesColors = false) (w : World) : c.IsReadable w := by
  intro r hr hlevel
  refine w.reader.complaint?_of_untagged (Console.untagged_of_not_mem ?_)
  obtain ⟨page, hr⟩ := exists_mem_recorded hr
  cases c with
  | audit file json failUnder => exact Journal.isBracketless_of_mem_ofAudit hr
  | verify file request json =>
      cases request with
      | unknown shown =>
          rw [List.mem_singleton.mp hr] at hlevel
          contradiction
      | known a =>
          refine Journal.isBracketless_of_mem_ofVerify ?_ hr
          rintro rfl
          contradiction
  | contrast foreground background json => contradiction

end Command

end CommandLine

end Accessibility
