import AttrCheck.Diagnostic

/-!
The engine that collects diagnostics. Warnings can be suppressed by name or code and promoted to
errors; errors cannot be suppressed. A note joins the latest report and is lost with it.
-/

namespace AttrCheck

structure Engine where
  suppressed : List String
  promotes : Bool
  /-- In the order of the reports. -/
  recorded : List Diagnostic
  /-- Whether the latest report was recorded, so that notes join it. -/
  isListening : Bool

namespace Engine

def new (suppressed : List String) (promotes : Bool) : Engine := ⟨suppressed, promotes, [], false⟩

def suppresses (e : Engine) (id : DiagId) : Bool :=
  e.suppressed.contains id.name || e.suppressed.contains id.code

def severity? (e : Engine) (id : DiagId) : Option Severity :=
  match id.severity with
  | .warning =>
    if e.suppresses id then none else some (if e.promotes then .error else .warning)
  | s => some s

def diagnose? (e : Engine) (r : Report) : Option Diagnostic :=
  (e.severity? r.id).map fun severity => ⟨r.id, severity, r.loc, r.args, r.ranges, r.notes⟩

def report (e : Engine) (r : Report) : Engine :=
  match e.diagnose? r with
  | none => { e with isListening := false }
  | some d => { e with recorded := e.recorded ++ [d], isListening := true }

def reportAll (e : Engine) (rs : List Report) : Engine := rs.foldl report e

def noteLast (n : Note) : List Diagnostic → List Diagnostic
  | [] => []
  | [d] => [{ d with notes := d.notes ++ [n] }]
  | d :: ds => d :: noteLast n ds

def note (e : Engine) (n : Note) : Engine :=
  if e.isListening then { e with recorded := noteLast n e.recorded } else e

def clear (e : Engine) : Engine := { e with recorded := [], isListening := false }

def errors (e : Engine) : List Diagnostic := e.recorded.filter Diagnostic.isError

def warnings (e : Engine) : List Diagnostic := e.recorded.filter Diagnostic.isWarning

def errorCount (e : Engine) : Nat := e.errors.length

def warningCount (e : Engine) : Nat := e.warnings.length

def hasErrors (e : Engine) : Bool := e.recorded.any Diagnostic.isError

def withId (e : Engine) (id : DiagId) : List Diagnostic := e.recorded.filter (·.id = id)

def render (e : Engine) (format : DiagFormat) : Except FormatError String :=
  format.render e.recorded

theorem length_noteLast (n : Note) (ds : List Diagnostic) :
    (noteLast n ds).length = ds.length := by
  induction ds with
  | nil => rfl
  | cons d ds ih =>
    cases ds with
    | nil => rfl
    | cons d' ds => simpa [noteLast] using ih

theorem noteLast_append_singleton (n : Note) (ds : List Diagnostic) (d : Diagnostic) :
    noteLast n (ds ++ [d]) = ds ++ [{ d with notes := d.notes ++ [n] }] := by
  induction ds with
  | nil => rfl
  | cons d' ds ih =>
    cases ds with
    | nil => rfl
    | cons d'' ds => simpa [noteLast] using ih

end Engine

end AttrCheck
