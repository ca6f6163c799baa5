import Accessibility.CommandLine.Run
import Accessibility.Proofs.CommandLine.Arguments

/-! # Runs that come to an end

Audits and the checks of exercises record nothing that the console shows unless it is asked for every record. -/

namespace Accessibility

namespace Journal

theorem level_of_mem_ofReport {subject : Audit.Subject} {page : Text} {r : Record} (h : r ∈ ofReport subject page) :
    r.level = .debug := by
  cases subject <;> simp only [ofReport] at h
  case aria => exact List.mem_singleton.mp h ▸ rfl
  all_goals
    split at h
    · contradiction
    · exact List.mem_singleton.mp h ▸ rfl

theorem level_of_mem_ofAudit {page : Text} {r : Record} (h : r ∈ ofAudit page) : r.level = .debug := by
  rcases List.mem_append.mp h with h | h
  · obtain ⟨subject, -, hr⟩ := List.mem_flatMap.mp h
    exact level_of_mem_ofReport hr
  · exact List.mem_singleton.mp h ▸ rfl

theorem level_of_mem_ofResolve {value : Value} {default : Text} {r : Record} (h : r ∈ ofResolve value default) :
    r.level = .debug := by
  unfold ofResolve at h
  split at h
  · exact List.mem_singleton.mp h ▸ rfl
  · contradiction

theorem level_of_mem_ofDeclaredColors {page : Text} {r : Record} (h : r ∈ ofDeclaredColors page) :
    r.level = .debug := by
  unfold ofDeclaredColors at h
  dsimp only at h
  split at h
  · exact level_of_mem_ofResolve h
  · exact (List.mem_append.mp h).elim level_of_mem_ofResolve level_of_mem_ofResolve

/-- Only the check of an exercise that is not known warns. -/
theorem level_of_mem_ofVerify {page : Text} {a : Activity} {r : Record} (h : r ∈ ofVerify page (.known a)) :
    r.level = .debug := by
  have hbefore : ∀ r ∈ (if a = .contrast then ofDeclaredColors page else []), r.level = .debug := by
    intro r hr
    split at hr
    · exact level_of_mem_ofDeclaredColors hr
    · contradiction
  unfold ofVerify at h
  dsimp only at h
  split at h
  · exact hbefore r h
  · rcases List.mem_append.mp h with h | h
    · exact hbefore r h
    · exact List.mem_singleton.mp h ▸ rfl

theorem atLeast_eq_nil {records : List Record} (h : ∀ r ∈ records, r.level = .debug) {threshold : Int}
    (hthreshold : Level.debug.weight < threshold) : atLeast threshold records = [] := by
  refine List.filter_eq_nil_iff.mpr fun r hr => ?_
  rw [h r hr, decide_eq_true_eq]
  omega

end Journal

namespace CommandLine

theorem Arguments.debug_lt_threshold (quiet : Bool) (c : Command) :
    Journal.Level.debug.weight < Arguments.threshold { quiet, command := some c } := by
  cases quiet <;> exact of_decide_eq_true rfl

/-- Where no record is to be shown, there is nothing to complain of. -/
theorem Performance.shownTo_of_atLeast_eq_nil {p : Performance} {threshold : Int}
    (h : Journal.atLeast threshold p.records = []) (reader : Console.Reader) :
    p.shownTo reader threshold = { p with records := [] } := by
  rw [shownTo, h]
  rfl

/-- A run ends as its command is performed, if nothing worth showing is recorded. -/
theorem run_programWords {quiet : Bool} {words : List Text} {c : Command}
    (hread : readArguments (programWords quiet words) = .ok ({ quiet, command := some c }, c)) {w : World}
    {p : Performance} (hperform : c.performIn quiet w = p) (hfault : p.fault = none)
    (hrecords : ∀ r ∈ p.records, r.level = .debug) :
    run (programWords quiet words) w =
      .finished { exit := p.exit, printed := p.printed, events := p.events, directory := w.directory } := by
  have hnone := Journal.atLeast_eq_nil hrecords (Arguments.debug_lt_threshold quiet c)
  have hlog : openLog { quiet, command := some c } w.directory = .ok (none, w.directory) := rfl
  simp only [run, hread, hlog, hperform, Performance.shownTo_of_atLeast_eq_nil hnone, hfault]
  rfl

theorem readArguments_verifyWords {file : Text} (hfile : verifyGrammar.IsOperand file) (quiet : Bool) (a : Activity)
    (json : Bool) :
    let c : Command := .verify file (.known a) json
    readArguments (programWords quiet (verifyWords file a json)) = .ok ({ quiet, command := some c }, c) := by
  refine readArguments_programWords (by decide) ?_ (readCommand_verifyWords hfile a json)
  have hjson : ∀ w ∈ (if json then ["--json".toList] else []), Text.upTo '=' w ≠ separatorWord := by
    cases json <;> decide
  rintro w (_ | ⟨_, _ | ⟨_, _ | ⟨_, hw⟩⟩⟩)
  · exact hfile.front_ne (by decide)
  · decide
  · exact Grammar.front_ne_of_head (head?_tag a)
  · exact hjson w hw

theorem Performance.fault_verify (quiet json : Bool) (request : Activity.Request) (page : Text) :
    (verify quiet json request page).fault = none := by
  unfold verify
  dsimp only
  split <;> rfl

/-- Checking an exercise of a page that can be read. -/
theorem run_verifyWords {file page : Text} {w : World} (hfile : verifyGrammar.IsOperand file)
    (hsource : w.source file = .ok page) (quiet : Bool) (a : Activity) (json : Bool) :
    let p := Performance.verify quiet json (.known a) page
    run (programWords quiet (verifyWords file a json)) w =
      .finished { exit := p.exit, printed := p.printed, events := p.events, directory := w.directory } := by
  refine run_programWords (readArguments_verifyWords hfile quiet a json) ?_ (Performance.fault_verify _ _ _ _) ?_
  · simp only [Command.performIn, Command.file?, hsource, Command.perform]
  · intro r hr
    unfold Performance.verify at hr
    dsimp only at hr
    split at hr <;> exact Journal.level_of_mem_ofVerify hr

theorem readArguments_auditWords {file : Text} (hfile : auditGrammar.IsOperand file) (quiet json : Bool)
    {least : Option Int} (hleast : ∀ n ∈ least, Numeral.IsReadable n) :
    let c : Command := .audit file json (least.map .number)
    readArguments (programWords quiet (auditWords file json least)) = .ok ({ quiet, command := some c }, c) := by
  refine readArguments_programWords (by decide) ?_ (readCommand_auditWords hfile json hleast)
  have hjson : ∀ w ∈ (if json then ["--json".toList] else []), Text.upTo '=' w ≠ separatorWord := by
    cases json <;> decide
  have hnumber : ∀ w ∈ least.elim [] fun n => ["--fail-under".toList, (toString n).toList],
      Text.upTo '=' w ≠ separatorWord := by
    cases least with
    | none => nofun
    | some n =>
        rintro w (_ | ⟨_, _ | ⟨_, hw⟩⟩)
        · decide
        · exact (isOperand_toString n).front_ne (by decide)
        · contradiction
  intro w hw
  rcases List.mem_cons.mp hw with rfl | hw
  · exact hfile.front_ne (by decide)
  · exact (List.mem_append.mp hw).elim (hjson w) (hnumber w)

/-- Whether the score of a page is at least what is asked for. -/
def reaches (least : Option Int) (score : Nat) : Bool :=
  least.all (· ≤ (score : Int))

theorem reaches_eq_true_iff {least : Option Int} {score : Nat} :
    reaches least score = true ↔ ∀ n ∈ least, n ≤ (score : Int) := by
  cases least <;> simp [reaches]

theorem isBelow_number (score : Nat) (least : Option Int) :
    Performance.isBelow score (least.map .number) = .ok !reaches least score := by
  cases least with
  | none => rfl
  | some n =>
      simp only [Performance.isBelow, Option.map_some, reaches, Option.all_some, Except.ok.injEq]
      rw [← decide_not]
      exact decide_eq_decide.mpr Int.not_le.symm

theorem audit_number (quiet json : Bool) (least : Option Int) (page : Text) :
    Performance.audit quiet json (least.map .number) page =
      let a := Audit.ofPage page
      { exit := Performance.exitOf (a.passed && reaches least a.score)
        records := Journal.ofAudit page
        printed := if json then Performance.printJson a.toJson else ""
        events := if json then [] else
          auditEvents quiet a ++
            if reaches least a.score then [] else Performance.tooLow a.score (least.map .number) } := by
  simp only [Performance.audit, isBelow_number]
  cases reaches least (Audit.ofPage page).score with
  | true => simp
  | false => cases json <;> simp [Performance.exitOf]

/-- Auditing a page that can be read. -/
theorem run_auditWords {file page : Text} {w : World} (hfile : auditGrammar.IsOperand file)
    (hsource : w.source file = .ok page) (quiet json : Bool) {least : Option Int}
    (hleast : ∀ n ∈ least, Numeral.IsReadable n) :
    let p := Performance.audit quiet json (least.map .number) page
    run (programWords quiet (auditWords file json least)) w =
      .finished { exit := p.exit, printed := p.printed, events := p.events, directory := w.directory } := by
  refine run_programWords (readArguments_auditWords hfile quiet json hleast) ?_ (by rw [audit_number]) ?_
  · simp only [Command.performIn, Command.file?, hsource, Command.perform]
  · rw [audit_number]
    exact fun r => Journal.level_of_mem_ofAudit

end CommandLine

end Accessibility
