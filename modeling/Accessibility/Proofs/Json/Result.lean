import Accessibility.CommandLine.Run
import Accessibility.Proofs.Json.RoundTrip

/-! # Printed results

The dictionary of a result with any texts, any number of issues and any counts is read back from its print. The
results of audits, of their reports and of exercises are such results. -/

namespace Accessibility

open CommandLine (Performance)

/-! ## Dictionaries -/

namespace Result

/-- An issue by what is told of it. -/
structure Finding where
  severity : Audit.Severity
  rule : String
  message : String
  suggestion : String
  element : Option String

namespace Finding

def ofIssue (i : Audit.Issue) : Finding where
  severity := i.severity
  rule := i.rule.id
  message := i.message
  suggestion := i.suggestion
  element := i.element.map String.ofList

def toJson (f : Finding) : Json :=
  .object [
    ("element", Json.ofOption .text f.element),
    ("message", .text f.message),
    ("rule", .text f.rule),
    ("severity", .text f.severity.name),
    ("suggestion", .text f.suggestion)]

theorem toJson_ofIssue (i : Audit.Issue) : (ofIssue i).toJson = i.toJson := by
  cases h : i.element <;> simp only [toJson, ofIssue, Audit.Issue.toJson, Json.ofOption, h, Option.map_none,
    Option.map_some, Function.comp_apply]

end Finding

def countsJson (counts : List (String × Int)) : Json :=
  .object (counts.map fun (name, n) => (name, .integer n))

end Result

open Result (Finding)

/-- What is printed as data: an audit with counts for each subject, a report on one subject, or a verdict. -/
inductive Result
  | audit (passed : Bool) (score : Int) (findings : List Finding) (details : List (String × List (String × Int)))
  | report (passed : Bool) (score : Int) (findings : List Finding) (details : List (String × Int))
  | exercise (v : Verdict)

namespace Result

def findingsJson (passed : Bool) (score : Int) (findings : List Finding) (details : Json) : Json :=
  .object [
    ("details", details),
    ("issues", .array (findings.map Finding.toJson)),
    ("passed", .bool passed),
    ("score", .integer score)]

def toJson : Result → Json
  | audit passed score findings details =>
    findingsJson passed score findings (.object (details.map fun (name, counts) => (name, countsJson counts)))
  | report passed score findings details => findingsJson passed score findings (countsJson details)
  | exercise v => v.toJson

def ofCounts (counts : List (String × Nat)) : List (String × Int) :=
  counts.map fun (name, n) => (name, (n : Int))

def ofAudit (a : Audit) : Result :=
  audit a.passed a.score (a.issues.map Finding.ofIssue) [
    ("alt_text", ofCounts a.images.counts),
    ("aria", ofCounts a.aria.counts),
    ("forms", ofCounts a.forms.counts),
    ("headings", ofCounts a.headings.counts)]

def ofReport (p : Audit.Report) : Result :=
  report p.passed p.score (p.issues.map Finding.ofIssue) (ofCounts p.counts)

theorem countsJson_ofCounts (counts : List (String × Nat)) :
    countsJson (ofCounts counts) = .object (counts.map fun (name, n) => (name, .ofNat n)) := by
  rw [countsJson, ofCounts, List.map_map]
  rfl

theorem map_toJson_ofIssue (issues : List Audit.Issue) :
    (issues.map Finding.ofIssue).map Finding.toJson = issues.map Audit.Issue.toJson := by
  rw [List.map_map]
  exact List.map_congr_left fun i _ => Finding.toJson_ofIssue i

theorem toJson_ofAudit (a : Audit) : (ofAudit a).toJson = a.toJson := by
  simp only [ofAudit, toJson, findingsJson, map_toJson_ofIssue, List.map_cons, List.map_nil, countsJson_ofCounts]
  rfl

theorem toJson_ofReport (p : Audit.Report) : (ofReport p).toJson = p.toJson := by
  simp only [ofReport, toJson, findingsJson, map_toJson_ofIssue, countsJson_ofCounts]
  rfl

/-! ## Wholeness -/

theorem isWhole_ofOption (t : Option String) : (Json.ofOption .text t).IsWhole := by
  cases t with
  | none => exact .null
  | some s => exact .text s

theorem isWhole_object {members : List (String × Json)} (h : ∀ j ∈ members.map Prod.snd, j.IsWhole) :
    (Json.object members).IsWhole :=
  .object fun m hm => h m.2 (List.mem_map_of_mem hm)

theorem Finding.isWhole (f : Finding) : f.toJson.IsWhole := by
  refine isWhole_object ?_
  simp only [List.map_cons, List.map_nil, List.forall_mem_cons]
  exact ⟨isWhole_ofOption _, .text _, .text _, .text _, .text _, List.forall_mem_nil _⟩

theorem isWhole_countsJson (counts : List (String × Int)) : (countsJson counts).IsWhole := by
  refine .object fun m hm => ?_
  obtain ⟨c, -, rfl⟩ := List.mem_map.mp hm
  exact .integer c.2

theorem isWhole_findingsJson (passed : Bool) (score : Int) (findings : List Finding) {details : Json}
    (h : details.IsWhole) : (findingsJson passed score findings details).IsWhole := by
  have hfindings : (Json.array (findings.map Finding.toJson)).IsWhole := by
    refine .array fun j hj => ?_
    obtain ⟨f, -, rfl⟩ := List.mem_map.mp hj
    exact f.isWhole
  refine isWhole_object ?_
  simp only [List.map_cons, List.map_nil, List.forall_mem_cons]
  exact ⟨h, hfindings, .bool passed, .integer score, List.forall_mem_nil _⟩

theorem isWhole_verdict (v : Verdict) : v.toJson.IsWhole := by
  have hdetails : (Json.array (v.details.map .text)).IsWhole := by
    refine .array fun j hj => ?_
    obtain ⟨s, -, rfl⟩ := List.mem_map.mp hj
    exact .text s
  refine isWhole_object ?_
  simp only [List.map_cons, List.map_nil, List.forall_mem_cons]
  exact ⟨isWhole_ofOption _, hdetails, .text _, .bool _, List.forall_mem_nil _⟩

theorem isWhole (r : Result) : r.toJson.IsWhole := by
  cases r with
  | audit passed score findings details =>
      refine isWhole_findingsJson passed score findings (.object fun m hm => ?_)
      obtain ⟨d, -, rfl⟩ := List.mem_map.mp hm
      exact isWhole_countsJson d.2
  | report passed score findings details =>
      exact isWhole_findingsJson passed score findings (isWhole_countsJson details)
  | exercise v => exact isWhole_verdict v

/-! ## Prints -/

theorem toList_printJson (j : Json) : (Performance.printJson j).toList = Json.print 0 j ++ ['\n'] := by
  rw [Performance.printJson, Json.pretty, String.toList_append, String.toList_ofList]
  rfl

theorem read?_printJson {j : Json} (h : j.IsWhole) : Json.read? (Performance.printJson j).toList = some j := by
  rw [toList_printJson, h.read?_print]

theorem isPlain_printJson {j : Json} (h : j.IsWhole) : ∀ c ∈ (Performance.printJson j).toList, Json.IsPlain c := by
  rw [toList_printJson]
  exact List.forall_mem_append.mpr ⟨h.isPlain_print 0, Json.isPlain_of_all (by decide)⟩

theorem printJson_inj {j k : Json} (hj : j.IsWhole) (hk : k.IsWhole) :
    Performance.printJson j = Performance.printJson k ↔ j = k := by
  refine ⟨fun h => ?_, fun h => h ▸ rfl⟩
  have hread := read?_printJson hj
  rw [h, read?_printJson hk] at hread
  exact (Option.some.inj hread).symm

/-- A result is printed in printable ASCII and line feeds, its dictionary is read back from the print, and results with
different dictionaries have different prints. -/
theorem printed_faithfully (r s : Result) :
    (∀ c ∈ (Performance.printJson r.toJson).toList, Json.IsPlain c) ∧
    Json.read? (Performance.printJson r.toJson).toList = some r.toJson ∧
    (Performance.printJson r.toJson = Performance.printJson s.toJson ↔ r.toJson = s.toJson) ∧
    (∀ a : Audit, (ofAudit a).toJson = a.toJson) ∧
    (∀ p : Audit.Report, (ofReport p).toJson = p.toJson) ∧
    ∀ v : Verdict, (exercise v).toJson = v.toJson :=
  ⟨isPlain_printJson r.isWhole, read?_printJson r.isWhole, printJson_inj r.isWhole s.isWhole, toJson_ofAudit,
    toJson_ofReport, fun _ => rfl⟩

end Result

end Accessibility
