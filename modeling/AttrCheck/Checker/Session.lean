import AttrCheck.Checker.Subject

/-!
Sessions: steps taken one after the other on one checker. A step answers, and a step that fails
leaves the checker ready for the next one.
-/

namespace AttrCheck

inductive Step where
  | pushFunction (name : String)
  | popFunction
  | pushSwitch (loc : Loc)
  | popSwitch
  | process (s : Subject) (attrs : List RawAttr) (specifiers : Range)
  | checkOne (s : Subject) (a : RawAttr) (specifiers : Range)
  | checkFallthrough (s : Subject) (a : RawAttr) (specifiers : Range)
  | checkLoopHint (s : Subject) (a : RawAttr) (specifiers : Range)
  /-- Steps inside of a function, if one is named, and of some `switch` statements. -/
  | inScopes (function : Option String) (switches : List Loc) (steps : List Step)

inductive Answer where
  | done
  | name (s : String)
  | place (loc : Loc)
  | attr (a : Option Attr)
  | kept (attrs : List Attr)
  | failed (d : Defect)
  | answers (as : List Answer)

inductive OpenScope where
  | function
  | switch
deriving DecidableEq

namespace Checker

def close (c : Checker) : OpenScope → Except Defect Checker
  | .function => c.popFunction.map Prod.snd
  | .switch => c.popSwitch.map Prod.snd

/-- Closes scopes, innermost first. One that cannot be closed does not keep the others open; the
last failure is the one that counts. -/
def closeAll (c : Checker) : List OpenScope → Option Defect × Checker
  | [] => (none, c)
  | scope :: rest =>
    match c.close scope with
    | .ok c => c.closeAll rest
    | .error d =>
      let later := c.closeAll rest
      (later.1.or (some d), later.2)

def openSwitches (c : Checker) (opened : List OpenScope) :
    List Loc → Except Defect Unit × List OpenScope × Checker
  | [] => (.ok (), opened, c)
  | loc :: locs =>
    match c.pushSwitch loc with
    | .error d => (.error d, opened, c)
    | .ok c => c.openSwitches (.switch :: opened) locs

def openScopes (c : Checker) (function : Option String) (switches : List Loc) :
    Except Defect Unit × List OpenScope × Checker :=
  match function with
  | none => c.openSwitches [] switches
  | some name => (c.pushFunction name).openSwitches [.function] switches

/-- What a body does inside of scopes. They are closed behind it even if it fails, and a failure to
close them is the one that counts; if not all of them can be opened, it is not run. -/
def within {α : Type} (c : Checker) (function : Option String) (switches : List Loc)
    (body : Checker → Except Defect α × Checker) : Except Defect α × Checker :=
  match c.openScopes function switches with
  | (.error d, opened, c) =>
    let closed := c.closeAll opened
    (.error (closed.1.getD d), closed.2)
  | (.ok (), opened, c) =>
    let inner := body c
    let closed := inner.2.closeAll opened
    (closed.1.elim inner.1 .error, closed.2)

end Checker

def Answer.ofResult {α : Type} (answer : α → Answer) :
    Except Defect α × Checker → Answer × Checker
  | (.ok a, c) => (answer a, c)
  | (.error d, c) => (failed d, c)

def Answer.ofExcept (c : Checker) : Except Defect (Answer × Checker) → Answer × Checker
  | .ok r => r
  | .error d => (failed d, c)

namespace Step

mutual

def run (c : Checker) : Step → Answer × Checker
  | pushFunction name => (.name name, c.pushFunction name)
  | popFunction => Answer.ofExcept c (c.popFunction.map fun r => (.name r.1.name, r.2))
  | pushSwitch loc => Answer.ofExcept c ((c.pushSwitch loc).map fun c => (.done, c))
  | popSwitch => Answer.ofExcept c (c.popSwitch.map fun r => (.place r.1, r.2))
  | process s attrs specifiers => Answer.ofResult .kept (s.process c attrs specifiers)
  | checkOne s a specifiers => Answer.ofResult .attr (s.checkOne c a specifiers)
  | checkFallthrough s a specifiers => Answer.ofResult .attr (s.checkFallthrough c a specifiers)
  | checkLoopHint s a specifiers => Answer.ofResult .attr (s.checkLoopHint c a specifiers)
  | inScopes function switches steps =>
    Answer.ofResult .answers (c.within function switches fun c =>
      let inner := runAll c steps
      (.ok inner.1, inner.2))

def runAll (c : Checker) : List Step → List Answer × Checker
  | [] => ([], c)
  | s :: ss =>
    let first := s.run c
    let rest := runAll first.2 ss
    (first.1 :: rest.1, rest.2)

end

end Step

end AttrCheck
