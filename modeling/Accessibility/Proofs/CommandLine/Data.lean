import Accessibility.Proofs.CommandLine.Insertion
import Accessibility.Proofs.CommandLine.Loudness

/-! # Runs that print data

A command that is asked for its data ends with the code with which it ends without, wherever among its own arguments it
is asked. -/

namespace Accessibility.CommandLine

open Console (Reader)

/-! ## Asking for data -/

def askAudit (a : AuditArguments) : AuditArguments :=
  { a with json := true }

def askVerify (a : VerifyArguments) : VerifyArguments :=
  { a with json := true }

def askContrast (a : ContrastArguments) : ContrastArguments :=
  { a with json := true }

theorem readLeastScore_askAudit (value : Option Text) (a : AuditArguments) :
    readLeastScore value (askAudit a) = (readLeastScore value a).map askAudit := by
  cases value with
  | none => rfl
  | some numeral =>
      simp only [readLeastScore]
      cases Numeral.read? 10 numeral <;> rfl

theorem readActivity_askVerify (value : Option Text) (a : VerifyArguments) :
    readActivity value (askVerify a) = (readActivity value a).map askVerify := by
  cases value with
  | none => rfl
  | some tag =>
      simp only [readActivity]
      cases Activity.ofTag? tag <;> rfl

theorem auditGrammar_indifferent : auditGrammar.Indifferent askAudit where
  option := List.forall_mem_cons.mpr
    ⟨trivial, List.forall_mem_cons.mpr ⟨fun _ => rfl, List.forall_mem_singleton.mpr readLeastScore_askAudit⟩⟩
  positional := List.forall_mem_singleton.mpr fun _ _ => rfl

theorem verifyGrammar_indifferent : verifyGrammar.Indifferent askVerify where
  option := List.forall_mem_cons.mpr
    ⟨trivial, List.forall_mem_cons.mpr ⟨readActivity_askVerify, List.forall_mem_singleton.mpr fun _ => rfl⟩⟩
  positional := List.forall_mem_singleton.mpr fun _ _ => rfl

theorem contrastGrammar_indifferent : contrastGrammar.Indifferent askContrast where
  option := List.forall_mem_cons.mpr ⟨trivial, List.forall_mem_singleton.mpr fun _ => rfl⟩
  positional := List.forall_mem_cons.mpr ⟨fun _ _ => rfl, List.forall_mem_singleton.mpr fun _ _ => rfl⟩

def contrastJsonOption : contrastGrammar.Given :=
  givenJson askContrast rfl

/-! ## Commands that ask for the same -/

/-- A background that is understood like another one, and of which the console complains as it does of that one. -/
structure TakenAlike (background background' : Value) : Prop where
  parse_eq : Color.parse background' = Color.parse background
  complaint_eq (reader : Reader) (threshold : Int) :
    reader.firstComplaint? (Journal.atLeast threshold (Journal.ofResolve background' Color.white.hex)) =
      reader.firstComplaint? (Journal.atLeast threshold (Journal.ofResolve background Color.white.hex))

theorem TakenAlike.refl (background : Value) : TakenAlike background background :=
  ⟨rfl, fun _ _ => rfl⟩

/-- The commands differ at most in whether they ask for data, and in a background that is taken alike. -/
inductive Command.AsksAlike : Command → Command → Prop
  | audit (file : Text) (json json' : Bool) (failUnder : Option LeastScore) :
      AsksAlike (audit file json failUnder) (audit file json' failUnder)
  | verify (file : Text) (activity : Activity.Request) (json json' : Bool) :
      AsksAlike (verify file activity json) (verify file activity json')
  | contrast (foreground : Value) {background background' : Value} (json json' : Bool)
      (h : TakenAlike background background') :
      AsksAlike (contrast foreground background json) (contrast foreground background' json')

theorem parse_separatorWord : Color.parse (.text separatorWord) = .ok none := by
  rfl

/-- Where a record can be read, it makes no difference. -/
theorem firstComplaint?_ofResolve {value : Value} {default : Text} (hparse : Color.parse value = .ok none)
    (h : Console.Untagged (Journal.unrecognized value default).message.toList) (reader : Reader) (threshold : Int) :
    reader.firstComplaint? (Journal.atLeast threshold (Journal.ofResolve value default)) = none := by
  refine Reader.firstComplaint?_eq_none_iff.mpr fun r hr => ?_
  have hmem := List.mem_of_mem_filter hr
  rw [Journal.ofResolve, hparse] at hmem
  rw [List.mem_singleton.mp hmem]
  exact reader.complaint?_of_untagged h

/-- A background that is missing is not understood, and neither is the word of the separator. -/
theorem takenAlike_separatorWord : TakenAlike (.other missingShown) (.text separatorWord) where
  parse_eq := parse_separatorWord
  complaint_eq reader threshold := by
    rw [firstComplaint?_ofResolve parse_separatorWord (by decide) reader threshold,
      firstComplaint?_ofResolve rfl (by decide) reader threshold]

namespace Performance

/-- The code that a performance ends with, and the fault that keeps it from doing more. -/
def ending (p : Performance) : Nat × Option Fault :=
  (p.exit, p.fault)

/-- What an audit ends with, whatever is told and printed. -/
theorem ending_audit (quiet quiet' json json' : Bool) (failUnder : Option LeastScore) (page : Text) :
    (audit quiet json failUnder page).ending = (audit quiet' json' failUnder page).ending := by
  unfold audit
  dsimp only
  split <;> rfl

theorem ending_verify (quiet quiet' json json' : Bool) (activity : Activity.Request) (page : Text) :
    (verify quiet json activity page).ending = (verify quiet' json' activity page).ending := by
  unfold verify
  dsimp only
  cases Exercise.verify page activity <;> rfl

/-- Where there is a contrast, its compliance can be computed. -/
theorem ending_contrast (json : Bool) (foreground background : Value) :
    (contrast json foreground background).ending =
      match Contrast.compute foreground background with
      | .error _ => (1, none)
      | .ok c => (exitOf c.passes, none) := by
  unfold contrast Contrast.compute Compliance.check
  cases Contrast.ratio? foreground background with
  | error f => rfl
  | ok x => cases json <;> rfl

/-- What is told and printed makes no difference to what the console complains of. -/
theorem ending_shownTo {p p' : Performance} (hending : p'.ending = p.ending) {reader : Reader} {threshold : Int}
    (hcomplaint : reader.firstComplaint? (Journal.atLeast threshold p'.records) =
      reader.firstComplaint? (Journal.atLeast threshold p.records)) :
    (p'.shownTo reader threshold).ending = (p.shownTo reader threshold).ending := by
  unfold shownTo
  dsimp only
  rw [hcomplaint]
  split
  · exact hending
  · rfl

end Performance

namespace Command

theorem compute_eq_of_parse_eq (foreground : Value) {background background' : Value}
    (h : Color.parse background' = Color.parse background) :
    Contrast.compute foreground background' = Contrast.compute foreground background := by
  rw [Contrast.compute, Contrast.compute, Contrast.ratio?, Contrast.ratio?, h]

theorem AsksAlike.file?_eq {c c' : Command} (h : c.AsksAlike c') : c'.file? = c.file? := by
  cases h <;> rfl

theorem AsksAlike.ending_perform {c c' : Command} (h : c.AsksAlike c') (quiet : Bool) (page : Text) :
    (c'.perform quiet page).ending = (c.perform quiet page).ending := by
  cases h with
  | audit file json json' failUnder => exact Performance.ending_audit _ _ _ _ _ _
  | verify file activity json json' => exact Performance.ending_verify _ _ _ _ _ _
  | contrast foreground json json' h =>
      simp only [perform, Performance.ending_contrast, compute_eq_of_parse_eq foreground h.parse_eq]

theorem AsksAlike.firstComplaint?_recorded {c c' : Command} (h : c.AsksAlike c') (reader : Reader) (threshold : Int)
    (page : Text) :
    reader.firstComplaint? (Journal.atLeast threshold (c'.recorded page)) =
      reader.firstComplaint? (Journal.atLeast threshold (c.recorded page)) := by
  cases h with
  | audit | verify => rfl
  | contrast foreground json json' h =>
      simp only [recorded, Journal.ofContrast]
      split
      · rfl
      · rw [Journal.atLeast_append, Journal.atLeast_append, Reader.firstComplaint?_append,
          Reader.firstComplaint?_append, h.complaint_eq]

/-- Commands that ask for the same look at the same page. -/
theorem AsksAlike.ending_performAt {c c' : Command} (h : c.AsksAlike c') (w : World) (l : Loudness) :
    (c'.performAt w l).ending = (c.performAt w l).ending := by
  have hperform (page : Text) :
      ((c'.perform (l = .quiet) page).shownTo w.reader l.settings.threshold).ending =
        ((c.perform (l = .quiet) page).shownTo w.reader l.settings.threshold).ending := by
    refine Performance.ending_shownTo (h.ending_perform _ page) ?_
    rw [firstComplaint?_records_perform, firstComplaint?_records_perform, h.firstComplaint?_recorded]
  unfold performAt performIn
  rw [h.file?_eq]
  split
  · exact hperform []
  · split
    · exact hperform _
    · rfl

end Command

/-! ## Commands with the option put in -/

/-- A command is read by a grammar of its own. -/
def IsReadBy {σ : Type} (name : Text) (g : Grammar σ) (settings : σ) (form : σ → Command) : Prop :=
  ∀ words, readCommand (name :: words) = (g.read settings words).map fun (a, extras) => (form a, extras)

section

variable {name : Text} {σ : Type} {g : Grammar σ} {settings : σ} {form : σ → Command}
  (h : IsReadBy name g settings form)

include h

theorem IsReadBy.eq_ok_iff {words : List Text} {c : Command} :
    readCommand (name :: words) = .ok (c, []) ↔ ∃ a, g.read settings words = .ok (a, []) ∧ form a = c := by
  rw [h words]
  cases g.read settings words with
  | error refusal => exact ⟨nofun, fun ⟨a, ha, _⟩ => nomatch ha⟩
  | ok found =>
      obtain ⟨a, extras⟩ := found
      constructor
      · intro hok
        obtain ⟨rfl, rfl⟩ := Prod.mk.inj (Except.ok.inj hok)
        exact ⟨a, rfl, rfl⟩
      · rintro ⟨other, hok, rfl⟩
        obtain ⟨rfl, rfl⟩ := Prod.mk.inj (Except.ok.inj hok)
        rfl

variable {change : σ → σ} (hg : g.Indifferent change) (o : g.Given) (hflag : o.rule.effect = .flag change)

include hg hflag

theorem IsReadBy.flag_cons {words : List Text} {c : Command} (hread : readCommand (name :: words) = .ok (c, [])) :
    ∃ c', readCommand (name :: o.name :: words) = .ok (c', []) := by
  obtain ⟨a, ha, -⟩ := h.eq_ok_iff.mp hread
  exact ⟨form (change a), h.eq_ok_iff.mpr ⟨change a, Grammar.read_flag_cons hg o hflag ha, rfl⟩⟩

theorem IsReadBy.asksAlike (hword : ∀ rule ∈ g.positionals, rule.takesRest = false) (hlength : g.positionals.length ≤ 2)
    (halike : ∀ a b, Grammar.DifferBy change g.positionals a b → (form a).AsksAlike (form b)) {front back : List Text}
    (hfront : separatorWord ∉ front) {c c' : Command} (hread : readCommand (name :: (front ++ back)) = .ok (c, []))
    (hread' : readCommand (name :: (front ++ o.name :: back)) = .ok (c', [])) : c.AsksAlike c' := by
  obtain ⟨a, ha, rfl⟩ := h.eq_ok_iff.mp hread
  obtain ⟨b, hb, rfl⟩ := h.eq_ok_iff.mp hread'
  exact halike a b (Grammar.read_flag_inserted hg o hflag hword hlength hfront ha hb)

end

theorem isReadBy_audit :
    IsReadBy "audit".toList auditGrammar {} fun a => .audit a.file a.json a.failUnder :=
  fun _ => rfl

theorem isReadBy_verify :
    IsReadBy "verify".toList verifyGrammar {} fun a => .verify a.file a.activity a.json :=
  fun _ => rfl

theorem isReadBy_contrast :
    IsReadBy "contrast".toList contrastGrammar {} fun a => .contrast a.foreground a.background a.json :=
  fun _ => rfl

theorem audit_asksAlike {a b : AuditArguments} (h : Grammar.DifferBy askAudit auditGrammar.positionals a b) :
    (Command.audit a.file a.json a.failUnder).AsksAlike (.audit b.file b.json b.failUnder) := by
  cases h with
  | change h => exact h ▸ .audit _ _ _ _
  | last hrule => exact nomatch hrule

theorem verify_asksAlike {a b : VerifyArguments} (h : Grammar.DifferBy askVerify verifyGrammar.positionals a b) :
    (Command.verify a.file a.activity a.json).AsksAlike (.verify b.file b.activity b.json) := by
  cases h with
  | change h => exact h ▸ .verify _ _ _ _
  | last hrule => exact nomatch hrule

theorem contrast_asksAlike {a b : ContrastArguments}
    (h : Grammar.DifferBy askContrast contrastGrammar.positionals a b) :
    (Command.contrast a.foreground a.background a.json).AsksAlike (.contrast b.foreground b.background b.json) := by
  cases h with
  | change h => exact h ▸ .contrast _ _ _ (.refl _)
  | last hrule without withFlag =>
      obtain rfl := List.mem_singleton.mp hrule
      obtain rfl := Except.ok.inj without
      obtain rfl := Except.ok.inj withFlag
      exact .contrast _ _ _ takenAlike_separatorWord

section

variable {name : Text} (hname : name ∈ commandNames)

include hname

theorem head?_of_mem_commandNames : name.head? ≠ some '-' := by
  revert name
  decide

theorem readCommand_json_cons {words : List Text} {c : Command} (hread : readCommand (name :: words) = .ok (c, [])) :
    ∃ c', readCommand (name :: "--json".toList :: words) = .ok (c', []) := by
  rcases hname with _ | ⟨_, _ | ⟨_, _ | ⟨_, hname⟩⟩⟩
  · exact isReadBy_audit.flag_cons auditGrammar_indifferent auditJsonOption rfl hread
  · exact isReadBy_verify.flag_cons verifyGrammar_indifferent verifyJsonOption rfl hread
  · exact isReadBy_contrast.flag_cons contrastGrammar_indifferent contrastJsonOption rfl hread
  · contradiction

theorem asksAlike_of_json {front back : List Text} (hfront : separatorWord ∉ front) {c c' : Command}
    (hread : readCommand (name :: (front ++ back)) = .ok (c, []))
    (hread' : readCommand (name :: (front ++ "--json".toList :: back)) = .ok (c', [])) : c.AsksAlike c' := by
  rcases hname with _ | ⟨_, _ | ⟨_, _ | ⟨_, hname⟩⟩⟩
  · exact isReadBy_audit.asksAlike auditGrammar_indifferent auditJsonOption rfl (by decide) (by decide)
      (fun _ _ => audit_asksAlike) hfront hread hread'
  · exact isReadBy_verify.asksAlike verifyGrammar_indifferent verifyJsonOption rfl (by decide) (by decide)
      (fun _ _ => verify_asksAlike) hfront hread hread'
  · exact isReadBy_contrast.asksAlike contrastGrammar_indifferent contrastJsonOption rfl (by decide) (by decide)
      (fun _ _ => contrast_asksAlike) hfront hread hread'
  · contradiction

end

/-! ## Runs -/

/-- The code that a run ends with, and the fault that keeps it from doing more; none if it does not get to its
command. -/
def Outcome.ending : Outcome → Option (Nat × Option Fault)
  | finished f => some (f.exit, none)
  | failed fault f => some (f.exit, some fault)
  | refused _ | noLog _ => none

theorem ending_run_loud {name : Text} (hname : name.head? ≠ some '-') {rest : List Text} {a : Arguments} {c : Command}
    (h : readArguments (name :: rest) = .ok (a, c)) (l : Loudness) (w : World) :
    (run (l.words ++ name :: rest) w).ending = some (c.performAt w l).ending := by
  rw [run_loud hname h l, Performance.ending]
  cases (c.performAt w l).fault <;> rfl

end Accessibility.CommandLine
