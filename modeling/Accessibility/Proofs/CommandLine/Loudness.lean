import Accessibility.Proofs.CommandLine.Accepted
import Accessibility.Proofs.CommandLine.Records

/-! # How much a run tells

A run that is kept quiet tells a part of what it would tell. A run that is made verbose tells the records of the lowest
level besides, as long as the console can read them. The code it ends with and what it prints stay the same. -/

namespace Accessibility

open Console (Event Reader)

/-! ## Records among the events -/

namespace Console

/-- Whether an event is a record of the log. -/
def Event.isLog : Event → Bool
  | .log .. => true
  | _ => false

/-- Whether an event is a record of the lowest level. -/
def Event.isDebug : Event → Bool
  | .log .debug _ => true
  | _ => false

theorem Event.isDebug_of_isLog {e : Event} (h : e.isLog = false) : e.isDebug = false := by
  cases e with
  | log level message => contradiction
  | _ => rfl

/-- Events with a record among them are not what is left without records. -/
theorem filter_isLog_ne (level : Journal.Level) {events told : List Event} {message : String}
    (h : .log level message ∈ told) : events.filter (!·.isLog) ≠ told := by
  rintro rfl
  exact nomatch (List.mem_filter.mp h).2

theorem isLog_of_mem_ofRecords {records : List Journal.Record} {e : Event} (h : e ∈ ofRecords records) :
    e.isLog = true := by
  obtain ⟨r, -, rfl⟩ := List.mem_map.mp h
  rfl

theorem filter_isDebug_ofRecords (records : List Journal.Record) :
    (ofRecords records).filter (!·.isDebug) = ofRecords (Journal.atLeast Journal.Level.info.weight records) := by
  rw [ofRecords, ofRecords, List.filter_map, Journal.atLeast]
  congr 1
  refine List.filter_congr fun r _ => ?_
  obtain ⟨source, level, message⟩ := r
  cases level <;> rfl

end Console

namespace Journal

theorem atLeast_debug (records : List Record) : atLeast Level.debug.weight records = records := by
  refine List.filter_eq_self.mpr fun r _ => ?_
  obtain ⟨source, level, message⟩ := r
  cases level <;> rfl

/-- Where no record is of the middle level, a run that is kept quiet shows the records that it would show. -/
theorem atLeast_warning {records : List Record} (h : ∀ r ∈ records, r.level ≠ .info) :
    atLeast Level.warning.weight records = atLeast Level.info.weight records := by
  refine List.filter_congr fun r hr => ?_
  have hinfo := h r hr
  obtain ⟨source, level, message⟩ := r
  cases level with
  | info => contradiction
  | _ => rfl

theorem level_ne_info_of_mem_ofVerify {page : Text} {request : Activity.Request} {r : Record}
    (h : r ∈ ofVerify page request) : r.level ≠ .info := by
  cases request with
  | known a =>
      rw [level_of_mem_ofVerify h]
      nofun
  | unknown shown =>
      rw [List.mem_singleton.mp h]
      nofun

end Journal

namespace CommandLine

/-! ## Performances -/

theorem isLog_of_mem_auditEvents (quiet : Bool) (a : Audit) : ∀ e ∈ auditEvents quiet a, e.isLog = false := by
  unfold auditEvents
  dsimp only
  have hverdict : ∀ e ∈ [if a.passed = true then Console.tell .success s!"PASSED - Score: {a.score}/100"
      else Console.tell .error s!"FAILED - Score: {a.score}/100"], e.isLog = false := by
    rw [List.forall_mem_singleton]
    split <;> rfl
  split
  · exact hverdict
  · rw [List.forall_mem_append, List.forall_mem_cons, List.forall_mem_singleton]
    refine ⟨⟨hverdict _ List.mem_cons_self, rfl⟩, ?_⟩
    split
    · exact List.forall_mem_nil _
    · rw [List.forall_mem_singleton]
      rfl

theorem isLog_of_mem_verdictEvents (quiet : Bool) (request : Activity.Request) (v : Verdict) :
    ∀ e ∈ verdictEvents quiet request v, e.isLog = false := by
  unfold verdictEvents
  dsimp only
  split
  · rw [List.forall_mem_singleton]
    rfl
  · rw [List.forall_mem_append, List.forall_mem_cons, List.forall_mem_map]
    refine ⟨⟨rfl, fun _ _ => rfl⟩, ?_⟩
    split
    · exact List.forall_mem_nil _
    · exact List.forall_mem_nil _
    · rw [List.forall_mem_singleton]
      rfl

theorem isLog_of_mem_contrastEvents (c : Contrast) (k : Compliance) : ∀ e ∈ contrastEvents c k, e.isLog = false := by
  unfold contrastEvents
  dsimp only
  rw [List.forall_mem_cons, List.forall_mem_singleton]
  exact ⟨rfl, rfl⟩

theorem auditEvents_sublist (a : Audit) : (auditEvents true a).Sublist (auditEvents false a) :=
  (List.prefix_append _ _).sublist

theorem verdictEvents_sublist (request : Activity.Request) (v : Verdict) :
    (verdictEvents true request v).Sublist (verdictEvents false request v) :=
  (List.prefix_append _ _).sublist

namespace Performance

/-- What a command tells by itself is no record, and none of its records is of the middle level. -/
structure IsPlainSpoken (p : Performance) : Prop where
  events : ∀ e ∈ p.events, e.isLog = false
  records : ∀ r ∈ p.records, r.level ≠ .info

/-- A performance that is kept quiet, beside the same one that is not. -/
structure Quiets (p quiet : Performance) : Prop where
  exit : quiet.exit = p.exit
  fault : quiet.fault = p.fault
  records : quiet.records = p.records
  printed : quiet.printed = p.printed
  events : quiet.events.Sublist p.events

theorem Quiets.refl (p : Performance) : p.Quiets p :=
  ⟨rfl, rfl, rfl, rfl, .refl _⟩

/-- Being kept quiet only takes away from what is told. -/
structure OnlyQuiets (perform : Bool → Performance) : Prop where
  quiets : (perform false).Quiets (perform true)
  spoken (quiet : Bool) : (perform quiet).IsPlainSpoken

theorem OnlyQuiets.of_unchanged {perform : Bool → Performance} {p : Performance} (h : ∀ quiet, perform quiet = p)
    (spoken : p.IsPlainSpoken) : OnlyQuiets perform where
  quiets := by rw [h, h]; exact .refl p
  spoken quiet := by rw [h]; exact spoken

theorem isPlainSpoken_failure (message : String) {records : List Journal.Record}
    (h : ∀ r ∈ records, r.level ≠ .info) : IsPlainSpoken { failure message with records } where
  events := List.forall_mem_singleton.mpr rfl
  records := h

theorem isLog_of_mem_tooLow (score : Nat) (failUnder : Option LeastScore) :
    ∀ e ∈ tooLow score failUnder, e.isLog = false := by
  unfold tooLow
  split
  · exact List.forall_mem_singleton.mpr rfl
  · exact List.forall_mem_nil _

theorem isLog_of_mem_unless (json : Bool) {events : List Event} (h : ∀ e ∈ events, e.isLog = false) :
    ∀ e ∈ (if json then [] else events), e.isLog = false := by
  split
  · exact List.forall_mem_nil _
  · exact h

theorem unless_sublist (json : Bool) {events events' : List Event} (h : events.Sublist events') :
    (if json then [] else events).Sublist (if json then [] else events') := by
  split
  · exact .refl _
  · exact h

theorem isLog_of_mem_audit (quiet json : Bool) (failUnder : Option LeastScore) (page : Text) :
    ∀ e ∈ (audit quiet json failUnder page).events, e.isLog = false := by
  have hreport := isLog_of_mem_unless json (isLog_of_mem_auditEvents quiet (Audit.ofPage page))
  unfold audit
  dsimp only
  split
  · exact hreport
  · exact hreport
  · exact List.forall_mem_append.mpr ⟨hreport, isLog_of_mem_unless json (isLog_of_mem_tooLow _ _)⟩

theorem audit_quiets (json : Bool) (failUnder : Option LeastScore) (page : Text) :
    (audit false json failUnder page).Quiets (audit true json failUnder page) := by
  have hreport := unless_sublist json (auditEvents_sublist (Audit.ofPage page))
  unfold audit
  dsimp only
  split
  · exact ⟨rfl, rfl, rfl, rfl, hreport⟩
  · exact ⟨rfl, rfl, rfl, rfl, hreport⟩
  · exact ⟨rfl, rfl, rfl, rfl, hreport.append (.refl _)⟩

theorem audit_onlyQuiets (json : Bool) (failUnder : Option LeastScore) (page : Text) :
    OnlyQuiets fun quiet => audit quiet json failUnder page where
  quiets := audit_quiets json failUnder page
  spoken quiet :=
    { events := isLog_of_mem_audit quiet json failUnder page
      records := fun r hr => by
        rw [records_audit] at hr
        rw [Journal.level_of_mem_ofAudit hr]
        nofun }

theorem verify_onlyQuiets (json : Bool) (request : Activity.Request) (page : Text) :
    OnlyQuiets fun quiet => verify quiet json request page := by
  have hrecords : ∀ r ∈ Journal.ofVerify page request, r.level ≠ .info :=
    fun r hr => Journal.level_ne_info_of_mem_ofVerify hr
  cases hv : Exercise.verify page request with
  | error f =>
      refine .of_unchanged (fun quiet => ?_) (isPlainSpoken_failure ("Invalid input: " ++ f.message) hrecords)
      simp only [verify, hv]
      rfl
  | ok v =>
      simp only [verify, hv]
      refine ⟨⟨rfl, rfl, rfl, rfl, ?_⟩, fun quiet => ⟨?_, hrecords⟩⟩
      · exact unless_sublist json (verdictEvents_sublist request v)
      · exact isLog_of_mem_unless json (isLog_of_mem_verdictEvents quiet request v)

theorem isLog_of_mem_contrast {json : Bool} {foreground background : Value} :
    ∀ e ∈ (contrast json foreground background).events, e.isLog = false := by
  unfold contrast
  dsimp only
  split
  · exact List.forall_mem_singleton.mpr rfl
  · split
    · exact List.forall_mem_nil _
    · split
      · exact List.forall_mem_singleton.mpr rfl
      · exact isLog_of_mem_contrastEvents _ _

theorem isPlainSpoken_contrast (json : Bool) (foreground background : Value) :
    (contrast json foreground background).IsPlainSpoken where
  events := isLog_of_mem_contrast
  records r hr := by
    have hperform : r ∈ (Command.perform false (.contrast foreground background json) []).records := hr
    rw [Journal.level_of_mem_ofContrast (Command.mem_recorded hperform)]
    nofun

end Performance

/-! ## Commands -/

theorem SourceFault.isPlainSpoken (f : SourceFault) : f.performance.IsPlainSpoken := by
  cases f with
  | interrupted => exact ⟨List.forall_mem_singleton.mpr rfl, List.forall_mem_nil _⟩
  | unreadable file f => cases f <;> exact ⟨List.forall_mem_singleton.mpr rfl, List.forall_mem_nil _⟩

namespace Command

/-- The command has no file, or there is nothing to be read from it. -/
def ReadsNothing (c : Command) (w : World) : Prop :=
  ∀ file ∈ c.file?, ∃ f, w.source file = .error f

theorem performIn_of_source_error {c : Command} {w : World} {file : Text} {f : SourceFault}
    (hfile : c.file? = some file) (hsource : w.source file = .error f) (quiet : Bool) :
    c.performIn quiet w = f.performance := by
  simp only [performIn, hfile, hsource]

/-- A command that reads nothing has nothing that it could tell less of. -/
theorem ReadsNothing.performIn {c : Command} {w : World} (h : c.ReadsNothing w) :
    ∃ p : Performance, p.IsPlainSpoken ∧ ∀ quiet, c.performIn quiet w = p := by
  cases c with
  | audit file json failUnder =>
      obtain ⟨f, hsource⟩ := h file rfl
      exact ⟨_, f.isPlainSpoken, performIn_of_source_error rfl hsource⟩
  | verify file activity json =>
      obtain ⟨f, hsource⟩ := h file rfl
      exact ⟨_, f.isPlainSpoken, performIn_of_source_error rfl hsource⟩
  | contrast foreground background json =>
      exact ⟨_, Performance.isPlainSpoken_contrast json foreground background, fun _ => rfl⟩

theorem performIn_onlyQuiets (c : Command) (w : World) :
    Performance.OnlyQuiets fun quiet => c.performIn quiet w := by
  have hnothing : c.ReadsNothing w → Performance.OnlyQuiets fun quiet => c.performIn quiet w := by
    intro h
    obtain ⟨p, hspoken, hperform⟩ := h.performIn
    exact .of_unchanged hperform hspoken
  cases hfile : c.file? with
  | none => exact hnothing fun file h => nomatch hfile.symm.trans h
  | some file =>
      cases hsource : w.source file with
      | error f =>
          refine hnothing fun other h => ⟨f, ?_⟩
          rw [← hsource, Option.some.inj (hfile.symm.trans h)]
      | ok page =>
          simp only [performIn, hfile, hsource]
          cases c with
          | audit file json failUnder => exact Performance.audit_onlyQuiets json failUnder page
          | verify file activity json => exact Performance.verify_onlyQuiets json activity page
          | contrast foreground background json => contradiction

end Command

/-! ## Performances that are shown -/

namespace Performance

theorem mem_of_mem_shownTo {p : Performance} {reader : Reader} {threshold : Int} {r : Journal.Record}
    (h : r ∈ (p.shownTo reader threshold).records) : r ∈ p.records := by
  unfold Performance.shownTo at h
  dsimp only at h
  split at h
  · exact List.mem_of_mem_filter h
  · exact List.mem_of_mem_filter ((List.takeWhile_sublist _).subset h)

theorem IsPlainSpoken.shownTo {p : Performance} (h : p.IsPlainSpoken) (reader : Reader) (threshold : Int) :
    (p.shownTo reader threshold).IsPlainSpoken where
  events := by
    unfold Performance.shownTo
    dsimp only
    split
    · exact h.events
    · exact List.forall_mem_nil _
  records r hr := h.records r (mem_of_mem_shownTo hr)

/-- A complaint leaves nothing that one of the performances tells and the other does not. -/
theorem Quiets.shownTo {p quiet : Performance} (h : p.Quiets quiet) (reader : Reader) (threshold : Int) :
    (p.shownTo reader threshold).Quiets (quiet.shownTo reader threshold) := by
  simp only [Performance.shownTo, h.records]
  split
  · exact ⟨h.exit, h.fault, rfl, h.printed, h.events⟩
  · exact .refl _

theorem IsPlainSpoken.shownTo_warning {p : Performance} (h : p.IsPlainSpoken) (reader : Reader) :
    p.shownTo reader Journal.Level.warning.weight = p.shownTo reader Journal.Level.info.weight := by
  simp only [Performance.shownTo, Journal.atLeast_warning h.records]

/-- Records of the lowest level that can be read are shown besides, and that is all. -/
theorem shownTo_info {p : Performance} {reader : Reader}
    (h : ∀ r ∈ p.records, r.level = .debug → reader.complaint? r.message = none) :
    let shown := p.shownTo reader Journal.Level.debug.weight
    p.shownTo reader Journal.Level.info.weight =
      { shown with records := Journal.atLeast Journal.Level.info.weight shown.records } := by
  have hlow : ∀ r ∈ p.records, decide (Journal.Level.info.weight ≤ r.level.weight) = false →
      reader.complaint? r.message = none := by
    intro r hr hlow
    refine h r hr ?_
    obtain ⟨source, level, message⟩ := r
    cases level with
    | debug => rfl
    | _ => contradiction
  have hcomplaint : reader.firstComplaint? (Journal.atLeast Journal.Level.info.weight p.records) =
      reader.firstComplaint? p.records := Reader.firstComplaint?_filter hlow
  have hreadable : reader.readable (Journal.atLeast Journal.Level.info.weight p.records) =
      Journal.atLeast Journal.Level.info.weight (reader.readable p.records) := Reader.readable_filter hlow
  simp only [shownTo, Journal.atLeast_debug, hcomplaint, hreadable]
  split <;> rfl

theorem filter_isDebug_finish {p : Performance} (h : p.IsPlainSpoken) (log : Option (List Text)) (d : Directory) :
    (p.finish log d).events.filter (!·.isDebug) =
      ({ p with records := Journal.atLeast Journal.Level.info.weight p.records }.finish log d).events := by
  have hown : p.events.filter (!·.isDebug) = p.events :=
    List.filter_eq_self.mpr fun e he => by rw [Event.isDebug_of_isLog (h.events e he)]; rfl
  simp only [finish, List.filter_append, Console.filter_isDebug_ofRecords, hown]

theorem filter_isLog_finish {p : Performance} (h : p.IsPlainSpoken) (hrecords : ∀ r ∈ p.records, r.level = .debug)
    (log : Option (List Text)) (d : Directory) :
    (p.finish log d).events.filter (!·.isLog) =
      ({ p with records := Journal.atLeast Journal.Level.info.weight p.records }.finish log d).events := by
  have hown : p.events.filter (!·.isLog) = p.events :=
    List.filter_eq_self.mpr fun e he => by rw [h.events e he]; rfl
  have hlog : (Console.ofRecords p.records).filter (!·.isLog) = [] :=
    List.filter_eq_nil_iff.mpr fun e he => by rw [Console.isLog_of_mem_ofRecords he]; nofun
  have hnone : Journal.atLeast Journal.Level.info.weight p.records = [] :=
    Journal.atLeast_eq_nil hrecords (by decide)
  simp only [finish, List.filter_append, hlog, hown, hnone]
  rfl

end Performance

/-! ## Runs -/

/-- How a run ends that is kept quiet, beside the same run that is not. -/
structure Finish.Quiets (c : Command) (w : World) (plain quiet : Finish) : Prop where
  exit : quiet.exit = plain.exit
  printed : quiet.printed = plain.printed
  events : quiet.events.Sublist plain.events
  events_of_readsNothing : c.ReadsNothing w → quiet.events = plain.events

/-- How a run ends that is made verbose, beside the same run that is not. -/
structure Finish.Expands (c : Command) (plain verbose : Finish) : Prop where
  exit : verbose.exit = plain.exit
  printed : verbose.printed = plain.printed
  events : verbose.events.filter (!·.isDebug) = plain.events
  events_of_known : (∀ file shown json, c ≠ .verify file (.unknown shown) json) →
    verbose.events.filter (!·.isLog) = plain.events

variable {name : Text} {rest : List Text} {a : Arguments} {c : Command} {w : World}

/-- What a command does in a run that tells more or less. -/
def Command.performAt (c : Command) (w : World) (l : Loudness) : Performance :=
  (c.performIn (l = .quiet) w).shownTo w.reader l.settings.threshold

theorem run_loud (hname : name.head? ≠ some '-') (h : readArguments (name :: rest) = .ok (a, c)) (l : Loudness) :
    run (l.words ++ name :: rest) w =
      .ofEnd (c.performAt w l).fault ((c.performAt w l).finish none w.directory) := by
  have hlog : openLog { l.settings with command := some c } w.directory = .ok (none, w.directory) := rfl
  rw [run, readArguments_loud hname h l]
  simp only [hlog]
  rfl

theorem performAt_quiet (c : Command) (w : World) :
    (c.performAt w .plain).Quiets (c.performAt w .quiet) := by
  have honly := c.performIn_onlyQuiets w
  change ((c.performIn false w).shownTo w.reader Journal.Level.info.weight).Quiets
    ((c.performIn true w).shownTo w.reader Journal.Level.warning.weight)
  rw [(honly.spoken true).shownTo_warning]
  exact honly.quiets.shownTo w.reader Journal.Level.info.weight

theorem finish_quiets (c : Command) (w : World) (d : Directory) :
    Finish.Quiets c w ((c.performAt w .plain).finish none d) ((c.performAt w .quiet).finish none d) where
  exit := (performAt_quiet c w).exit
  printed := (performAt_quiet c w).printed
  events := by
    simp only [Performance.finish, (performAt_quiet c w).records]
    exact (List.Sublist.refl _).append (performAt_quiet c w).events
  events_of_readsNothing hnothing := by
    obtain ⟨p, hspoken, hperform⟩ := hnothing.performIn
    have hwarning := hspoken.shownTo_warning w.reader
    simp only [Command.performAt, hperform]
    exact congrArg (fun p : Performance => (p.finish none d).events) hwarning

/-- Made verbose, a command whose records can be read does the same and shows the records of the lowest level too. -/
theorem performAt_plain (hreadable : c.IsReadable w) :
    c.performAt w .plain =
      { c.performAt w .verbose with
        records := Journal.atLeast Journal.Level.info.weight (c.performAt w .verbose).records } :=
  Performance.shownTo_info hreadable

theorem finish_expands (hreadable : c.IsReadable w) (d : Directory) :
    Finish.Expands c ((c.performAt w .plain).finish none d) ((c.performAt w .verbose).finish none d) := by
  have hspoken : (c.performAt w .verbose).IsPlainSpoken :=
    ((c.performIn_onlyQuiets w).spoken false).shownTo w.reader Journal.Level.debug.weight
  rw [performAt_plain hreadable]
  refine ⟨rfl, rfl, Performance.filter_isDebug_finish hspoken none d, fun hknown => ?_⟩
  refine Performance.filter_isLog_finish hspoken (fun r hr => ?_) none d
  obtain ⟨page, hmem⟩ := Command.exists_mem_recorded (Performance.mem_of_mem_shownTo hr)
  exact Command.level_of_mem_recorded hknown hmem

/-- Runs of a command that are to tell more or less end alike, the one that is made verbose if its records can be
read. -/
def RunsAlike (c : Command) (w : World) (run : Loudness → Outcome) : Prop :=
  ∃ fault plain, run .plain = .ofEnd fault plain ∧
    (∃ quiet, run .quiet = .ofEnd fault quiet ∧ plain.Quiets c w quiet) ∧
    (c.IsReadable w → ∃ verbose, run .verbose = .ofEnd fault verbose ∧ plain.Expands c verbose)

theorem runsAlike (hname : name.head? ≠ some '-') (h : readArguments (name :: rest) = .ok (a, c)) (w : World) :
    RunsAlike c w fun l => run (l.words ++ name :: rest) w := by
  refine ⟨_, _, run_loud hname h .plain, ⟨_, ?_, finish_quiets c w w.directory⟩, fun hreadable =>
    ⟨_, ?_, finish_expands hreadable w.directory⟩⟩
  · exact (performAt_quiet c w).fault ▸ run_loud hname h .quiet
  · have hfault : (c.performAt w .plain).fault = (c.performAt w .verbose).fault := by rw [performAt_plain hreadable]
    exact hfault ▸ run_loud hname h .verbose

/-- A record of which the console complains ends a verbose run: nothing is printed, and nothing is told but the records
before it. -/
theorem run_verbose_of_complaint (hname : name.head? ≠ some '-') (h : readArguments (name :: rest) = .ok (a, c))
    {complaint : String} (hcomplaint : w.reader.firstComplaint? (c.performIn false w).records = some complaint) :
    run (Loudness.verbose.words ++ name :: rest) w =
      .failed (.unreadable complaint) {
        exit := 1
        printed := ""
        events := Console.ofRecords (w.reader.readable (c.performIn false w).records)
        directory := w.directory } := by
  have hshown : c.performAt w .verbose =
      Performance.stop { exit := 1, records := w.reader.readable (c.performIn false w).records }
        (.unreadable complaint) := by
    change (c.performIn false w).shownTo w.reader Journal.Level.debug.weight = _
    rw [Performance.shownTo, Journal.atLeast_debug, hcomplaint]
  rw [run_loud hname h .verbose, hshown]
  simp only [Performance.stop, Performance.finish, Outcome.ofEnd, Option.elim_some, Option.elim_none, List.append_nil]

end CommandLine

end Accessibility
