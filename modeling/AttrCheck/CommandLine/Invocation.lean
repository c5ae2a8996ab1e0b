import AttrCheck.CommandLine.Arguments

/-!
What a command line asks for: one of three commands, with its options, and how much is to be logged.
-/

namespace AttrCheck.CommandLine

inductive CheckFormat where
  | gcc | json | summary
deriving DecidableEq

inductive DumpFormat where
  | sexp | record
deriving DecidableEq

structure CheckOptions where
  warningsAsErrors : Bool := false
  suppressed : List String := []
  strictLoopOptions : Bool := false

inductive Destination where
  | console
  | file (name : String)
  /-- Where an option that names no file sends it. -/
  | nowhere
deriving DecidableEq

def Destination.ofName : Option String → Destination
  | none => nowhere
  | some name => if name = "-" then console else file name

inductive Command where
  | check (source : String) (format : CheckFormat) (output : Destination) (opts : CheckOptions)
  | dump (source : String) (format : DumpFormat) (output : Destination) (opts : CheckOptions)
  | options (output : Destination)

structure Invocation where
  /-- How often more was asked to be logged. -/
  verbosity : Nat
  command : Command

structure Settings (φ : Type) where
  format : φ
  output : Destination := .console
  opts : CheckOptions := {}

variable {φ : Type}

def helpOpt (σ : Type) : Opt σ := ⟨["-h", "--help"], .none, fun _ _ => .error .help⟩

def outputOpt : Opt (Settings φ) :=
  ⟨["-o", "--output"], .one, fun values s =>
    .ok { s with output := Destination.ofName values.head? }⟩

structure Formats (φ : Type) where
  named : List (String × φ)
  unnamed : φ

def formatOpt (formats : Formats φ) : Opt (Settings φ) :=
  ⟨["-f", "--format"], .one, fun values s =>
    match values with
    | [] => .ok { s with format := formats.unnamed }
    | name :: _ =>
      match formats.named.lookup name with
      | some format => .ok { s with format }
      | none => .error .usage⟩

def checkOpts : List (Opt (Settings φ)) :=
  [⟨["--Werror"], .none, fun _ s =>
      .ok { s with opts := { s.opts with warningsAsErrors := true } }⟩,
    ⟨["--suppress"], .some, fun values s =>
      .ok { s with opts := { s.opts with suppressed := values } }⟩,
    ⟨["--strict-loop-hints"], .none, fun _ s =>
      .ok { s with opts := { s.opts with strictLoopOptions := true } }⟩]

def fileOpts (formats : Formats φ) : List (Opt (Settings φ)) :=
  [helpOpt _, formatOpt formats, outputOpt] ++ checkOpts

def checkFormats : Formats CheckFormat :=
  ⟨[("gcc", .gcc), ("json", .json), ("summary", .summary)], .gcc⟩

def dumpFormats : Formats DumpFormat := ⟨[("sexp", .sexp), ("repr", .record)], .record⟩

def frontOpts : List (Opt Nat) :=
  [helpOpt _, ⟨["--version"], .none, fun _ _ => .error .version⟩,
    ⟨["-v", "--verbose"], .none, fun _ n => .ok (n + 1)⟩]

namespace Command

def read (name : String) (words : List String) : Except Stop Command :=
  match name with
  | "check" => do
    let (s, source) ← Scan.read (fileOpts checkFormats) { format := .gcc } true words
    return check (source.getD "") s.format s.output s.opts
  | "dump" => do
    let (s, source) ← Scan.read (fileOpts dumpFormats) { format := .sexp } true words
    return dump (source.getD "") s.format s.output s.opts
  | "options" => do
    let (s, _) ← Scan.read [helpOpt _, outputOpt] { format := () } false words
    return options s.output
  | _ => .error .usage

end Command

namespace Invocation

def read (words : List String) : Except Stop Invocation := do
  let marked ← markAll frontOpts words
  let (verbosity, hasExtra, name, rest) ← readFront frontOpts 0 false marked
  let command ← Command.read name rest
  if hasExtra then .error .usage else return ⟨verbosity, command⟩

end Invocation

end AttrCheck.CommandLine
