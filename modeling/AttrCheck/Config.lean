import AttrCheck.Diagnostic.Engine

/-!
The settings of a check, and what is wrong with a wish to suppress diagnostics.
-/

namespace AttrCheck

structure Config where
  filename : String := "<input>"
  warningsAsErrors : Bool := false
  suppressed : List String := []
  /-- Whether a loop option outside the table is refused. -/
  strictLoopOptions : Bool := false

namespace Config

def suppressedNames (c : Config) : List String :=
  (c.suppressed.mergeSort fun a b => a ≤ b).eraseDups

def complaint? (name : String) : Option String :=
  match DiagId.find? name with
  | none => some s!"unknown diagnostic '{name}' cannot be suppressed"
  | some id =>
    if id.severity = .error then some s!"error diagnostic '{name}' cannot be suppressed" else none

def validate (c : Config) : List String := c.suppressedNames.filterMap complaint?

def engine (c : Config) : Engine := Engine.new c.suppressed c.warningsAsErrors

end Config

end AttrCheck
