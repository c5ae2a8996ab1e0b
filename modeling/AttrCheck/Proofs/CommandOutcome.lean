import Mathlib
import AttrCheck.CommandLine.Run
import AttrCheck.Proofs.Building
import AttrCheck.Proofs.CommandReading
import AttrCheck.Proofs.Totality

/-! What a check and a dump of one file have in common. Each counts errors and writes diagnostics
in its own way, and both end with the same code and write the lines that the engine renders. -/

namespace AttrCheck

theorem Event.rank_level_lt (e : Event) : e.level.rank < LogLevel.warning.rank := by
  cases e with
  | checked => exact Nat.one_lt_two
  | _ => exact Nat.zero_lt_two

theorem IntegerSpelling.ofFile_initializerText (x : IntegerSpelling) :
    Text.ofFile (initializerText x.text) = initializerText x.text := by
  have hword : '\r' ∉ x.text.toList := fun h =>
    absurd (isNamePart_of_wordNumber x.wordNumber?_text _ h) (by decide)
  have hreturn : '\r' ∉ (initializerText x.text).toList := by
    simp [initializerText, hword]
  rw [Text.ofFile, Text.unifyNewlines_eq_self hreturn, String.ofList_toList]

theorem checked_variableUnit {file s : String} {n : Int} {u : SourceUnit}
    (h : u.bare = variableUnit file (.int n s .unknown)) (config : Config) :
    (u.checked config).diagnostics = [] ∧ (u.checked config).unit.sexp.numbers = [n] := by
  obtain ⟨functions, globals, f⟩ := u
  obtain ⟨hfunctions, hglobals, rfl⟩ := SourceUnit.mk.inj h
  obtain rfl := List.map_eq_nil_iff.mp hfunctions
  obtain ⟨d, rfl, hd⟩ := List.map_eq_singleton_iff.mp hglobals
  have hinit : d.init.map Expr.bare = some (.int n s .unknown) := congrArg VarDecl.init hd
  obtain ⟨e, he, hbare⟩ := Option.map_eq_some_iff.mp hinit
  cases e with
  | int n' s' l =>
    obtain ⟨rfl, rfl, _⟩ := Expr.int.inj hbare
    refine ⟨rfl, ?_⟩
    simp [SourceUnit.checked, SourceUnit.resolved, SourceUnit.sexp, VarDecl.sexp, he, SExp.numbers,
      SExp.allNumbers, SExp.form, Expr.optSexp, Expr.sexp]
  | _ => cases hbare

namespace CommandLine

theorem eventLines_zero (events : List Event) : eventLines 0 events = "" := by
  have hnone : (events.filter fun e => (leastLevel 0).rank ≤ e.level.rank) = [] :=
    List.filter_eq_nil_iff.mpr fun e _ => by
      simpa [leastLevel] using e.rank_level_lt
  rw [eventLines, hnone]
  rfl

def closed (ds : List Diagnostic) (lines : String) : String := if ds = [] then "" else lines ++ "\n"

theorem join_closed (s : String) (texts : List String) :
    String.join ((s :: texts).map (· ++ "\n")) = "\n".intercalate (s :: texts) ++ "\n" := by
  induction texts generalizing s with
  | nil => simp [String.join_cons]
  | cons t texts ih =>
    rw [List.map_cons, String.join_cons, ih t, String.intercalate_cons_cons, String.append_assoc,
      String.append_assoc, String.append_assoc]

theorem diagnosticLines_eq (ds : List Diagnostic) :
    diagnosticLines ds = (DiagFormat.gcc.render ds).map (closed ds) := by
  cases ds with
  | nil => rfl
  | cons d ds =>
    unfold diagnosticLines DiagFormat.render
    rw [List.mapM_cons]
    -- Both sides fail at the first diagnostic without a text.
    cases d.text with
    | error e => rfl
    | ok s =>
      cases ds.mapM Diagnostic.text with
      | error e => rfl
      | ok texts => exact congrArg Except.ok (join_closed s texts)

def CheckFormat.printed (format : CheckFormat) (ds : List Diagnostic) (gcc json : String) :
    String :=
  match format with
  | .gcc => closed ds gcc
  | .json => json ++ "\n"
  | .summary =>
    let errors := ds.countP (·.severity = .error)
    closed ds gcc ++ s!"\n--- {ds.length} diagnostic(s), {errors} error(s) ---\n"

theorem checkOutput_eq {ds : List Diagnostic} {gcc json : String}
    (hgcc : DiagFormat.gcc.render ds = .ok gcc) (hjson : DiagFormat.json.render ds = .ok json)
    (format : CheckFormat) : checkOutput format ds = .ok (format.printed ds gcc json) := by
  have hlines : diagnosticLines ds = .ok (closed ds gcc) := by
    rw [diagnosticLines_eq, hgcc]
    rfl
  cases format with
  | gcc => exact hlines
  | json =>
    unfold checkOutput
    rw [hjson]
    rfl
  | summary =>
    unfold checkOutput
    rw [hlines]
    simp only [CheckFormat.printed, List.countP_eq_length_filter]
    rfl

theorem exitCode_eq (result : CheckResult) :
    exitCode result = if ∃ d ∈ result.diagnostics, d.severity = .error then 1 else 0 := by
  have herrors : result.engine.hasErrors = true ↔
      ∃ d ∈ result.diagnostics, d.severity = .error := by
    simp only [Engine.hasErrors, List.any_eq_true, Diagnostic.isError, decide_eq_true_eq]
    rfl
  unfold exitCode
  simp only [herrors]

section Dump

variable {limit : DigitLimit} {format : DumpFormat} {u : SourceUnit}

theorem dumpOutput_of_canWrite (h : ∀ n ∈ format.numbers u, limit.canWrite n) :
    dumpOutput limit format u = some (format.text u ++ "\n") :=
  if_pos (List.all_eq_true.mpr h)

theorem dumpOutput_of_not_canWrite (h : ∃ n ∈ format.numbers u, limit.canWrite n = false) :
    dumpOutput limit format u = none := by
  obtain ⟨n, hn, hlong⟩ := h
  exact if_neg fun hall => Bool.eq_false_iff.mp hlong (List.all_eq_true.mp hall n hn)

end Dump

section File

variable {limit : DigitLimit} {files : FileTree} {directory source : Path} {name content : String}
  (hsource : files.resolve? directory name = some source)
  (hfile : files.entry source = .file content)

section Line

variable {opts : CheckOptions} {line : List String} {i : Invocation}
  {go : CheckResult → String → Outcome} (hread : Invocation.read line = .ok i)
  (hrun : i.run limit files directory = withChecked limit 0 files directory name opts go)
include hsource hfile hread hrun

theorem run_of_parse_error {e : SourceError}
    (hparse : parse source.text (Text.ofFile content) = .error e) :
    let complaints := String.join ((configOf source opts).validate.map (programLine .warning))
    run limit files directory line =
      { exit := 2, stderr := complaints ++ programLine .error s!"Parse error: {e.text}" } := by
  have hcheck := checkWithin_of_error hparse limit (configOf source opts)
  rw [run, hread]
  simp only [hrun, withChecked, hsource, hfile, hcheck]

theorem run_of_not_converts {u : SourceUnit}
    (hparse : parse source.text (Text.ofFile content) = .ok u)
    (hnot : ∃ s ∈ u.literals, limit.converts s = false) :
    run limit files directory line =
      unhandled (String.join ((configOf source opts).validate.map (programLine .warning))) := by
  have hcheck := checkWithin_of_not_converts hparse hnot (configOf source opts)
  rw [run, hread]
  simp only [hrun, withChecked, hsource, hfile, hcheck]

theorem run_of_converts {u : SourceUnit}
    (hparse : parse source.text (Text.ofFile content) = .ok u)
    (hall : ∀ s ∈ u.literals, limit.converts s) :
    let complaints := String.join ((configOf source opts).validate.map (programLine .warning))
    ∃ result,
      checkWithin limit (configOf source opts) source.text (Text.ofFile content) = .ok result ∧
      (∀ d ∈ result.diagnostics, d.Fills) ∧
      run limit files directory line = go result complaints := by
  have hcheck := checkWithin_of_converts hparse hall (configOf source opts)
  refine ⟨_, hcheck, fun d => SourceUnit.fills_of_mem_diagnostics, ?_⟩
  rw [run, hread]
  simp only [hrun, withChecked, hsource, hfile, hcheck, eventLines_zero, String.append_empty]

end Line

include hsource hfile

theorem run_both_of_converts {opts : CheckOptions} {format : CheckFormat} {dumpFormat : DumpFormat}
    {checkLine dumpLine : List String}
    (hcheck : Invocation.read checkLine = .ok ⟨0, .check name format .console opts⟩)
    (hdump : Invocation.read dumpLine = .ok ⟨0, .dump name dumpFormat .console opts⟩)
    {u : SourceUnit} (hparse : parse source.text (Text.ofFile content) = .ok u)
    (hall : ∀ s ∈ u.literals, limit.converts s) :
    let config := configOf source opts
    let complaints := String.join (config.validate.map (programLine .warning))
    let checked := run limit files directory checkLine
    let dumped := run limit files directory dumpLine
    ∃ result gcc json,
      checkWithin limit config source.text (Text.ofFile content) = .ok result ∧
      result.engine.render .gcc = .ok gcc ∧ result.engine.render .json = .ok json ∧
      let code := if ∃ d ∈ result.diagnostics, d.severity = .error then 1 else 0
      checked =
        { exit := code
          stdout := format.printed result.diagnostics gcc json
          stderr := complaints } ∧
      ((∀ n ∈ dumpFormat.numbers result.unit, limit.canWrite n) → dumped =
        { exit := code
          stdout := dumpFormat.text result.unit ++ "\n"
          stderr := complaints ++ closed result.diagnostics gcc }) ∧
      ((∃ n ∈ dumpFormat.numbers result.unit, limit.canWrite n = false) →
        dumped = unhandled complaints) := by
  intro config complaints checked dumped
  -- The function that goes on with a result is read off the command by rewriting: to compare it
  -- by evaluation would start the parser.
  obtain ⟨result, hresult, hfills, hchecked⟩ :=
    run_of_converts hsource hfile hcheck (by rw [Invocation.run]) hparse hall
  obtain ⟨result', hresult', _, hdumped⟩ :=
    run_of_converts hsource hfile hdump (by rw [Invocation.run]) hparse hall
  obtain rfl := Except.ok.inj (hresult.symm.trans hresult')
  obtain ⟨gcc, hgcc⟩ := DiagFormat.exists_render hfills .gcc
  obtain ⟨json, hjson⟩ := DiagFormat.exists_render hfills .json
  have hlines : diagnosticLines result.diagnostics = .ok (closed result.diagnostics gcc) := by
    rw [diagnosticLines_eq, hgcc]
    rfl
  refine ⟨result, gcc, json, hresult, hgcc, hjson, hchecked.trans ?_, fun hwrite =>
    hdumped.trans ?_, fun hnot => hdumped.trans ?_⟩
  · simp only [checkOutput_eq hgcc hjson, deliver, exitCode_eq, String.append_empty, complaints,
      config]
  · simp only [dumpOutput_of_canWrite hwrite, hlines, deliver, exitCode_eq, complaints, config]
  · simp only [dumpOutput_of_not_canWrite hnot, deliver, unhandled, complaints, config]

/-- Lines that ask for a check and for a dump of one file, with the same settings, the console to
print on and nothing more to be logged, end with the same code: 2 where the text cannot be read or
its tree cannot be built, 1 with an error among the diagnostics, 0 otherwise. The check prints a
text of the engine, closed, or the lines with the counts behind them; the dump writes the same lines
behind the complaints. Only where there is a number that the host does not write the dump fails, and
the check does not. -/
theorem run_check_dump {opts : CheckOptions} {format : CheckFormat} {dumpFormat : DumpFormat}
    {checkLine dumpLine : List String}
    (hcheck : Invocation.read checkLine = .ok ⟨0, .check name format .console opts⟩)
    (hdump : Invocation.read dumpLine = .ok ⟨0, .dump name dumpFormat .console opts⟩) :
    let config := configOf source opts
    let text := Text.ofFile content
    let complaints := String.join (config.validate.map (programLine .warning))
    let checked := run limit files directory checkLine
    let dumped := run limit files directory dumpLine
    (∀ e, parse source.text text = .error e →
      let rejected : Outcome :=
        { exit := 2, stderr := complaints ++ programLine .error s!"Parse error: {e.text}" }
      checked = rejected ∧ dumped = rejected) ∧
    ∀ u, parse source.text text = .ok u →
      ((∃ s ∈ u.literals, limit.converts s = false) →
        checked = unhandled complaints ∧ dumped = unhandled complaints) ∧
      ((∀ s ∈ u.literals, limit.converts s) → ∃ result gcc json,
        checkWithin limit config source.text text = .ok result ∧
        result.engine.render .gcc = .ok gcc ∧ result.engine.render .json = .ok json ∧
        let code := if ∃ d ∈ result.diagnostics, d.severity = .error then 1 else 0
        checked =
          { exit := code
            stdout := format.printed result.diagnostics gcc json
            stderr := complaints } ∧
        ((∀ n ∈ dumpFormat.numbers result.unit, limit.canWrite n) → dumped =
          { exit := code
            stdout := dumpFormat.text result.unit ++ "\n"
            stderr := complaints ++ closed result.diagnostics gcc }) ∧
        ((∃ n ∈ dumpFormat.numbers result.unit, limit.canWrite n = false) →
          dumped = unhandled complaints)) := by
  intro config text complaints checked dumped
  refine ⟨fun e hparse => ⟨?_, ?_⟩, fun u hparse => ⟨fun hnot => ⟨?_, ?_⟩, fun hall => ?_⟩⟩
  · exact run_of_parse_error hsource hfile hcheck (by rw [Invocation.run]) hparse
  · exact run_of_parse_error hsource hfile hdump (by rw [Invocation.run]) hparse
  · exact run_of_not_converts hsource hfile hcheck (by rw [Invocation.run]) hparse hnot
  · exact run_of_not_converts hsource hfile hdump (by rw [Invocation.run]) hparse hnot
  · exact run_both_of_converts hsource hfile hcheck hdump hparse hall

end File

def notedText : String := "void f() \x7b\r\n[[fallthrough]] g();\r\n[[nosuch]] ; \x7d"

def soleFile (content : String) : FileTree := ⟨[], [(["work", "a"], content)], []⟩

theorem resolve_soleFile (content : String) :
    (soleFile content).resolve? ["work"] "a" = some ["work", "a"] := by
  cbv

theorem entry_soleFile (content : String) :
    (soleFile content).entry ["work", "a"] = .file content := rfl

def notedOptions : CheckOptions := ⟨false, ["typo"], true⟩

theorem run_check_dump_noted : ∃ lines,
    let complaint := programLine .warning "unknown diagnostic 'typo' cannot be suppressed"
    let files := soleFile notedText
    let checked := run .standard files ["work"] (plainLine "check" "a" "summary" notedOptions)
    let dumped := run .standard files ["work"] (plainLine "dump" "a" "sexp" notedOptions)
    checked.exit = 1 ∧ dumped.exit = 1 ∧
      checked.stdout = lines ++ "\n" ++ "\n--- 2 diagnostic(s), 1 error(s) ---\n" ∧
      checked.stderr = complaint ∧ dumped.stderr = complaint ++ (lines ++ "\n") := by
  have hname : IsName "a" := by decide
  have hids : ∀ id ∈ notedOptions.suppressed, IsName id := by decide
  have hcheck : Invocation.read (plainLine "check" "a" "summary" notedOptions) =
      .ok ⟨0, .check "a" .summary .console notedOptions⟩ := read_plainLine_check hname hids .summary
  have hdump : Invocation.read (plainLine "dump" "a" "sexp" notedOptions) =
      .ok ⟨0, .dump "a" .sexp .console notedOptions⟩ := read_plainLine_dump hname hids .sexp
  have hcomplaints : (configOf ["work", "a"] notedOptions).validate =
      ["unknown diagnostic 'typo' cannot be suppressed"] := by decide +kernel
  have hread : ∃ u ∈ (parse "/work/a" (Text.ofFile notedText)).toOption,
      let result := u.checked (configOf ["work", "a"] notedOptions)
      result.diagnostics.length = 2 ∧ result.diagnostics.countP (·.severity = .error) = 1 ∧
        u.literals = [] ∧ result.unit.sexp.numbers = [] := by
    decide +kernel
  obtain ⟨u, hu, hlength, herrors, hliterals, hnumbers⟩ := hread
  have hparse := ok_of_mem_toOption hu
  have hall : ∀ s ∈ u.literals, DigitLimit.standard.converts s := hliterals ▸ List.forall_mem_nil _
  obtain ⟨_, hrun⟩ := run_check_dump (resolve_soleFile _) (entry_soleFile _) hcheck hdump
  obtain ⟨result, gcc, json, hresult, _, _, hchecked, hdumped, _⟩ := (hrun u hparse).2 hall
  have heq := Except.ok.inj
    (hresult.symm.trans (checkWithin_of_converts hparse hall (configOf ["work", "a"] notedOptions)))
  have hdiagnostics : result.diagnostics =
      (u.checked (configOf ["work", "a"] notedOptions)).diagnostics := by
    rw [heq]
    rfl
  have hwrite : ∀ n ∈ DumpFormat.sexp.numbers result.unit, DigitLimit.standard.canWrite n := by
    have hnone : DumpFormat.sexp.numbers result.unit = [] := by
      rw [heq]
      exact hnumbers
    exact hnone ▸ List.forall_mem_nil _
  rw [← hdiagnostics] at hlength herrors
  have hsome : result.diagnostics ≠ [] := List.ne_nil_of_length_pos (hlength ▸ Nat.two_pos)
  have hpos : 0 < result.diagnostics.countP (·.severity = .error) := herrors ▸ Nat.one_pos
  have herror : ∃ d ∈ result.diagnostics, d.severity = .error := by
    simpa using List.countP_pos_iff.mp hpos
  have hdumped := hdumped hwrite
  rw [hcomplaints, if_pos herror] at hchecked hdumped
  refine ⟨gcc, ?_⟩
  simp only [hchecked, hdumped, CheckFormat.printed, closed, if_neg hsome, hlength, herrors]
  exact ⟨trivial, trivial, rfl, rfl, rfl⟩

def wideSpelling : IntegerSpelling where
  radix := .hexadecimal
  mark := "0x"
  digits := List.replicate 3600 ⟨Fin.last 15, false⟩
  ending := ""
  mark_mem := by decide
  digits_ne_nil _ := nofun
  no_zero_in_front := nofun
  ending_mem := nil_mem_endings

theorem checked_wideSpelling (config : Config) : ∃ u,
    parse "/work/a" (Text.ofFile (initializerText wideSpelling.text)) = .ok u ∧
      (∀ s ∈ u.literals, DigitLimit.standard.converts s) ∧ (u.checked config).diagnostics = [] ∧
      ∃ n ∈ (u.checked config).unit.sexp.numbers, DigitLimit.standard.canWrite n = false := by
  obtain ⟨u, hparse, hbare⟩ := (wideSpelling.parse_text "/work/a").2
  obtain ⟨hdiagnostics, hnumbers⟩ := checked_variableUnit hbare config
  rw [← wideSpelling.ofFile_initializerText] at hparse
  refine ⟨u, hparse, ?_, hdiagnostics, wideSpelling.value, ?_, by decide +kernel⟩
  · rw [← u.literals_bare, hbare, literals_variableUnit]
    exact List.forall_mem_singleton.mpr (DigitLimit.converts_of_zero _ wideSpelling.toList_text)
  · rw [hnumbers]
    exact .head _

/-- The check of a file succeeds, and the dump of it fails. -/
theorem run_check_dump_wide :
    let files := soleFile (initializerText wideSpelling.text)
    run .standard files ["work"] (plainLine "check" "a" "gcc" {}) = { exit := 0 } ∧
      run .standard files ["work"] (plainLine "dump" "a" "sexp" {}) = unhandled "" := by
  have hname : IsName "a" := by decide
  have hids : ∀ id ∈ ({} : CheckOptions).suppressed, IsName id := nofun
  have hcheck : Invocation.read (plainLine "check" "a" "gcc" {}) =
      .ok ⟨0, .check "a" .gcc .console {}⟩ := read_plainLine_check hname hids .gcc
  have hdump : Invocation.read (plainLine "dump" "a" "sexp" {}) =
      .ok ⟨0, .dump "a" .sexp .console {}⟩ := read_plainLine_dump hname hids .sexp
  have hcomplaints : (configOf ["work", "a"] {}).validate = [] := by decide +kernel
  obtain ⟨u, hparse, hall, hdiagnostics, hlong⟩ := checked_wideSpelling (configOf ["work", "a"] {})
  obtain ⟨result, gcc, json, hresult, _, _, hchecked, _, hdumped⟩ :=
    run_both_of_converts (resolve_soleFile _) (entry_soleFile _) hcheck hdump hparse hall
  have heq := Except.ok.inj
    (hresult.symm.trans (checkWithin_of_converts hparse hall (configOf ["work", "a"] {})))
  have hnone : result.diagnostics = [] := by
    rw [heq]
    exact hdiagnostics
  refine ⟨hchecked.trans ?_, (hdumped ?_).trans ?_⟩
  · simp [hnone, hcomplaints, CheckFormat.printed, closed]
  · rw [heq]
    exact hlong
  · rw [hcomplaints]
    rfl

end CommandLine

end AttrCheck
