import AttrCheck.Grammar.Build
import AttrCheck.Resolve

/-!
Checking a source text: it is read as a unit, the tree of the unit is built, and the attributes in
it are resolved.
-/

namespace AttrCheck

inductive CheckError where
  | unreadable (e : SourceError)
  | unbuilt (e : BuildError)
  | defect (d : Defect)
deriving DecidableEq

def SourceUnit.readEvent (u : SourceUnit) : Event := .parsed u.file u.functions.length

def SourceUnit.outcome (u : SourceUnit) (config : Config) : Except CheckError CheckResult :=
  match u.check config with
  | .error d => .error (.defect d)
  | .ok result => .ok { result with events := u.readEvent :: result.events }

def parseSource (limit : DigitLimit) (file text : String) : Except CheckError SourceUnit :=
  match parse file text with
  | .error e => .error (.unreadable e)
  | .ok u => (u.build limit).mapError .unbuilt

def checkWithin (limit : DigitLimit) (config : Config) (file text : String) :
    Except CheckError CheckResult := do
  (← parseSource limit file text).outcome config

/-- The check of a text with the tree that the grammar gives, whatever digits are in it. -/
def checkSource (config : Config) (file text : String) : Except CheckError CheckResult :=
  match parse file text with
  | .error e => .error (.unreadable e)
  | .ok u => u.outcome config

end AttrCheck
