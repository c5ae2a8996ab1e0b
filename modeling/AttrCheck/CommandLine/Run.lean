import AttrCheck.Check
import AttrCheck.CommandLine.Invocation
import AttrCheck.CommandLine.Path
import AttrCheck.Outline.Tree
import AttrCheck.SExp
import AttrCheck.Text.Newline

/-!
Carrying out a command on the files at hand: what is printed, what is written and the exit code,
which is 0 without errors, 1 with errors found and 2 where nothing could be checked.
-/

namespace AttrCheck.CommandLine

def programName : String := "stmtattr"

def version : String := "0.1.0"

structure Outcome where
  exit : Nat
  stdout : String := ""
  stderr : String := ""
  /-- The file that was written, with its content. -/
  written : Option (Path × String) := none

def logLine (level : LogLevel) (logger text : String) : String :=
  s!"[{level.label}] {logger}: {text}\n"

def programLine (level : LogLevel) (text : String) : String := logLine level programName text

def leastLevel (verbosity : Nat) : LogLevel :=
  match verbosity with
  | 0 => .warning
  | 1 => .info
  | _ => .debug

def eventLines (verbosity : Nat) (events : List Event) : String :=
  String.join <| (events.filter fun e => (leastLevel verbosity).rank ≤ e.level.rank).map fun e =>
    logLine e.level e.logger e.text

/-- The last line of a command that fails outside of its own business, left open for what the
system says. -/
def unhandledLine : String := s!"[{LogLevel.error.label}] {programName}: Unhandled exception"

def unhandled (log : String) : Outcome := { exit := 2, stderr := log ++ unhandledLine }

def deliver (files : FileTree) (directory : Path) (output : Destination) (content log : String)
    (more : String) (exit : Nat) : Outcome :=
  match output with
  | .console => { exit, stdout := content, stderr := log ++ more }
  | .nowhere => unhandled log
  | .file name =>
    match files.resolve? directory name with
    | none => unhandled log
    | some p =>
      if files.canWrite p then { exit, stderr := log ++ more, written := some (p, content) }
      else unhandled log

def diagnosticLines (ds : List Diagnostic) : Except FormatError String := do
  return String.join ((← ds.mapM Diagnostic.text).map (· ++ "\n"))

def checkOutput (format : CheckFormat) (ds : List Diagnostic) : Except FormatError String :=
  match format with
  | .gcc => diagnosticLines ds
  | .json => return (← DiagFormat.json.render ds) ++ "\n"
  | .summary => do
    let lines ← diagnosticLines ds
    let errors := (ds.filter Diagnostic.isError).length
    return lines ++ s!"\n--- {ds.length} diagnostic(s), {errors} error(s) ---\n"

def DumpFormat.text : DumpFormat → SourceUnit → String
  | sexp, u => u.sexp.text
  | record, u => u.outline.shown

def DumpFormat.numbers : DumpFormat → SourceUnit → List Int
  | sexp, u => u.sexp.numbers
  | record, u => u.outline.numbers

def dumpOutput (limit : DigitLimit) (format : DumpFormat) (u : SourceUnit) : Option String :=
  if (format.numbers u).all limit.canWrite then some (format.text u ++ "\n") else none

def configOf (source : Path) (opts : CheckOptions) : Config :=
  { filename := source.text
    warningsAsErrors := opts.warningsAsErrors
    suppressed := opts.suppressed
    strictLoopOptions := opts.strictLoopOptions }

def withChecked (limit : DigitLimit) (verbosity : Nat) (files : FileTree) (directory : Path)
    (name : String) (opts : CheckOptions) (go : CheckResult → String → Outcome) : Outcome :=
  match files.resolve? directory name with
  | none => unhandled ""
  | some source =>
    let config := configOf source opts
    let complaints := String.join (config.validate.map (programLine .warning))
    match files.entry source with
    | .refused => unhandled ""
    | .missing =>
      { exit := 2, stderr := programLine .error s!"source file not found: {source.text}" }
    | .directory => unhandled complaints
    | .file content =>
      match checkWithin limit config source.text (Text.ofFile content) with
      | .error (.unreadable e) =>
        { exit := 2, stderr := complaints ++ programLine .error s!"Parse error: {e.text}" }
      | .error _ => unhandled complaints
      | .ok result => go result (complaints ++ eventLines verbosity result.events)

def padded (width : Nat) (s : String) : String :=
  s ++ String.ofList (List.replicate (width - s.length) ' ')

def optionsTable : String :=
  let line (o : HintOption) : String :=
    let value := match o.optionClass with
      | .boolean => "enable|disable"
      | .numeric => "N >= 1"
    s!"  {padded 18 o.text} {padded 11 (o.category.option .boolean).text} {value}\n"
  String.join (HintOption.all.map line) ++ s!"\n{HintOption.all.length} option(s) available.\n"

def exitCode (result : CheckResult) : Nat := if result.engine.hasErrors then 1 else 0

def Invocation.run (limit : DigitLimit) (i : Invocation) (files : FileTree) (directory : Path) :
    Outcome :=
  match i.command with
  | .check source format output opts =>
    withChecked limit i.verbosity files directory source opts fun result log =>
      match checkOutput format result.diagnostics with
      | .error _ => unhandled log
      | .ok content => deliver files directory output content log "" (exitCode result)
  | .dump source format output opts =>
    withChecked limit i.verbosity files directory source opts fun result log =>
      match dumpOutput limit format result.unit, diagnosticLines result.diagnostics with
      | some content, .ok lines =>
        deliver files directory output content log lines (exitCode result)
      | some content, .error _ => deliver files directory output content log unhandledLine 2
      -- A file for the output is there by then, without content.
      | none, _ => deliver files directory output "" log unhandledLine 2
  | .options output => deliver files directory output optionsTable "" "" 0

def usageText : String := s!"usage: {programName} [-h] [--version] [-v] check|dump|options ...\n"

def run (limit : DigitLimit) (files : FileTree) (directory : Path) (words : List String) :
    Outcome :=
  match Invocation.read words with
  | .error .usage => { exit := 2, stderr := usageText }
  | .error .help => { exit := 0, stdout := usageText }
  | .error .version => { exit := 0, stdout := s!"{programName} {version}\n" }
  | .ok i => i.run limit files directory

end AttrCheck.CommandLine
