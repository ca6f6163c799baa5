import Accessibility.Proofs.CommandLine.Data

/-! # Flags about output

Whether a run is kept quiet, made verbose or asked for its data, it ends with the same code. -/

namespace Accessibility.CommandLine

/-- A command that is accepted ends alike but for what is told, however much it is to tell, if its records can be read
where they are told. The records of a command that resolves no colours always can. Asked for its data anywhere before
the separator, a command ends with the same code. -/
theorem output_flags_keep_verdict {name : Text} (hname : name ∈ commandNames) {rest : List Text} {a : Arguments}
    {c : Command} (haccepted : readArguments (name :: rest) = .ok (a, c)) (w : World) :
    (RunsAlike c w fun l => run (l.words ++ name :: rest) w) ∧
    (c.resolvesColors = false → c.IsReadable w) ∧
    (∃ a' c', readArguments (name :: "--json".toList :: rest) = .ok (a', c')) ∧
    ∀ front back, rest = front ++ back → separatorWord ∉ front →
      ∀ a' c', readArguments (name :: (front ++ "--json".toList :: back)) = .ok (a', c') →
        ∀ l : Loudness,
          (run (l.words ++ name :: (front ++ "--json".toList :: back)) w).ending =
            (run (l.words ++ name :: rest) w).ending := by
  have hhead := head?_of_mem_commandNames hname
  obtain ⟨⟨words, hwords⟩, hcommand⟩ := readCommand_of_readArguments hhead haccepted
  refine ⟨runsAlike hhead haccepted w, fun h => Command.isReadable_of_not_resolvesColors h w, ?_, ?_⟩
  · obtain ⟨c', hcommand'⟩ := readCommand_json_cons hname hcommand
    have hwords' : grammar.readWords ("--json".toList :: rest) = .ok (.unknown "--json".toList :: words) :=
      Grammar.readWords_cons (by decide) rfl hwords
    exact ⟨_, c', readArguments_of_readCommand hhead hwords' hcommand' .plain⟩
  · rintro front back rfl hfront a' c' haccepted' l
    obtain ⟨-, hcommand'⟩ := readCommand_of_readArguments hhead haccepted'
    have halike := asksAlike_of_json hname hfront hcommand hcommand'
    rw [ending_run_loud hhead haccepted', ending_run_loud hhead haccepted, halike.ending_performAt]

theorem output_flags_keep_verdict_sky :
    let words := ["contrast".toList, "sky".toList, "white".toList]
    let w : World := { reader := .strict }
    (∃ fault plain quiet verbose, run words w = .ofEnd fault plain ∧
      run ("-q".toList :: words) w = .ofEnd fault quiet ∧ run ("-v".toList :: words) w = .ofEnd fault verbose ∧
      quiet.exit = plain.exit ∧ quiet.events = plain.events ∧
      verbose.exit = plain.exit ∧ verbose.events.filter (!·.isLog) = plain.events) ∧
    ∀ l : Loudness,
      (run (l.words ++ ["contrast".toList, "sky".toList, "--json".toList, "white".toList]) w).ending =
        (run (l.words ++ words) w).ending := by
  intro words w
  have hname : "contrast".toList ∈ commandNames := by decide
  let c : Command := .contrast (.text "sky".toList) (.text "white".toList) false
  have haccepted : readArguments words = .ok ({ command := some c }, c) := rfl
  obtain ⟨⟨fault, plain, hplain, ⟨quiet, hquiet, hquiets⟩, hverbose⟩, -, -, hjson⟩ :=
    output_flags_keep_verdict hname haccepted w
  have hreadable : c.IsReadable w := by
    intro r hr _
    obtain ⟨page, hmem⟩ := Command.exists_mem_recorded hr
    have hrecord : c.recorded page = [Journal.unrecognized (.text "sky".toList) Color.black.hex] := rfl
    rw [hrecord] at hmem
    rw [List.mem_singleton.mp hmem]
    decide
  obtain ⟨verbose, hrun, hexpands⟩ := hverbose hreadable
  refine ⟨⟨fault, plain, quiet, verbose, hplain, hquiet, hrun, hquiets.exit, ?_, hexpands.exit, ?_⟩, ?_⟩
  · exact hquiets.events_of_readsNothing nofun
  · exact hexpands.events_of_known nofun
  · exact hjson ["sky".toList] ["white".toList] rfl (by decide) _ _ rfl

/-- A warning is shown in either run, so that the events of the run that is made verbose, without its records, are not
those of the run that is not. -/
theorem verbose_events_without_records_ne :
    let words := ["verify".toList, "-".toList, "--activity=--".toList]
    let w : World := { input := some "<p>Text</p>".toList, reader := .strict }
    ∃ a c plain verbose, readArguments words = .ok (a, c) ∧ run words w = .finished plain ∧
      run ("-v".toList :: words) w = .finished verbose ∧ verbose.events.filter (!·.isLog) ≠ plain.events := by
  intro words w
  have hhead : "verify".toList.head? ≠ some '-' := by decide
  have hread : readArguments words =
      .ok ({ command := some (.verify "-".toList (.unknown "[]") false) },
        .verify "-".toList (.unknown "[]") false) := rfl
  refine ⟨_, _, _, _, hread, run_loud (w := w) hhead hread .plain, run_loud (w := w) hhead hread .verbose, ?_⟩
  exact Console.filter_isLog_ne .warning List.mem_cons_self

end Accessibility.CommandLine
