import AttrCheck.Loc
import AttrCheck.Text.Quoted
import AttrCheck.Attribute.Registry
import AttrCheck.Attribute.LoopHint

/-!
What a check logs on its way, for those who ask to see it.
-/

namespace AttrCheck

inductive LogLevel where
  | debug | info | warning | error
deriving DecidableEq

namespace LogLevel

def rank : LogLevel → Nat
  | debug => 0
  | info => 1
  | warning => 2
  | error => 3

def label : LogLevel → String
  | debug => "DEBUG"
  | info => "INFO "
  | warning => "WARNI"
  | error => "ERROR"

end LogLevel

inductive Event where
  | parsed (file : String) (functions : Nat)
  | dispatch (kind : AttrKind) (loc : Loc)
  | dependentValue (loc : Loc)
  | unlistedOption (name : String) (loc : Loc)
  | checked (file : String) (attributes errors warnings : Nat)

namespace Event

def level : Event → LogLevel
  | checked _ _ _ _ => .info
  | _ => .debug

def logger : Event → String
  | parsed _ _ => "stmtattr.parser"
  | dispatch _ _ => "stmtattr.sema"
  | dependentValue _ | unlistedOption _ _ => "stmtattr.loop_hint"
  | checked _ _ _ _ => "stmtattr.frontend"

def text : Event → String
  | parsed file functions => s!"parsed {file}: {functions} function(s)"
  | dispatch kind loc => s!"dispatching {kind.label} attribute at {loc.text}"
  | dependentValue loc => s!"value-dependent loop hint value at {loc.text}"
  | unlistedOption name loc =>
    s!"unrecognized loop hint option {Text.recordQuote name} at {loc.text} treated as " ++
      HintOption.fallback.text
  | checked file attributes errors warnings =>
    s!"{file}: {attributes} attribute(s) validated, {errors} error(s), {warnings} warning(s)"

end Event

end AttrCheck
