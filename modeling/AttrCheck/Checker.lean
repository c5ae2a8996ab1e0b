import AttrCheck.Config
import AttrCheck.Verdict
import AttrCheck.HintConflict

/-!
The checker: the engine that hears its reports, and the functions and `switch` statements that are
open around the statement at hand. Opening and closing fail rather than go below the bottom, and a
failure changes nothing.
-/

namespace AttrCheck

inductive Defect where
  | noFunction
  | noSwitch
  | outsideFunction
  | noOptionIdentifier
  | notAStatement
deriving DecidableEq

def Defect.message : Defect → String
  | noFunction => "no function scope to pop"
  | noSwitch => "no switch statement to pop"
  | outsideFunction => "statement attributes processed outside a function"
  | noOptionIdentifier => "loop hint attribute must carry an option identifier"
  | notAStatement => "attributes checked on what is no statement"

structure FunctionScope where
  name : String
  switches : List Loc
deriving DecidableEq

structure Checker where
  config : Config
  engine : Engine
  /-- Innermost first. -/
  functions : List FunctionScope
  events : List Event

def anonymous : String := "<anonymous>"

namespace Checker

def new (config : Config) : Checker := ⟨config, config.engine, [], []⟩

def pushFunction (c : Checker) (name : String) : Checker :=
  { c with functions := ⟨name, []⟩ :: c.functions }

def popFunction (c : Checker) : Except Defect (FunctionScope × Checker) :=
  match c.functions with
  | [] => .error .noFunction
  | f :: fs => .ok (f, { c with functions := fs })

def pushSwitch (c : Checker) (loc : Loc) : Except Defect Checker :=
  match c.functions with
  | [] => .error .outsideFunction
  | f :: fs => .ok { c with functions := { f with switches := loc :: f.switches } :: fs }

def popSwitch (c : Checker) : Except Defect (Loc × Checker) :=
  match c.functions with
  | [] => .error .outsideFunction
  | f :: fs =>
    match f.switches with
    | [] => .error .noSwitch
    | loc :: rest => .ok (loc, { c with functions := { f with switches := rest } :: fs })

def inSwitch (c : Checker) : Bool :=
  match c.functions with
  | [] => false
  | f :: _ => !f.switches.isEmpty

def log (c : Checker) (es : List Event) : Checker := { c with events := c.events ++ es }

def report (c : Checker) (r : Report) : Checker := { c with engine := c.engine.report r }

def reportAll (c : Checker) (rs : List Report) : Checker :=
  { c with engine := c.engine.reportAll rs }

def settle (c : Checker) (t : Target) (a : RawAttr) (specifiers : Range) :
    Verdict → Except Defect (Option Attr) × Checker
  | .keep attr => (.ok (some attr), c)
  | .reject why => (.ok none, c.report (why.report t a specifiers))
  | .malformed => (.error .noOptionIdentifier, c)

def checkFallthrough (c : Checker) (t : Target) (a : RawAttr) (specifiers : Range) :
    Except Defect (Option Attr) × Checker :=
  c.settle t a specifiers (a.fallthroughVerdict t c.inSwitch)

def checkLoopHint (c : Checker) (t : Target) (a : RawAttr) (specifiers : Range) :
    Except Defect (Option Attr) × Checker :=
  let strict := c.config.strictLoopOptions
  (c.log (if t.kind.isLoop then a.hintEvents strict else [])).settle t a specifiers
    (a.loopHintVerdict t strict)

def checkOne (c : Checker) (t : Target) (a : RawAttr) (specifiers : Range) :
    Except Defect (Option Attr) × Checker :=
  let strict := c.config.strictLoopOptions
  (c.log (a.events t strict)).settle t a specifiers (a.verdict t c.inSwitch strict)

def checkEach (check : Checker → RawAttr → Except Defect (Option Attr) × Checker) :
    List RawAttr → Checker → Except Defect (List Attr) × Checker
  | [], c => (.ok [], c)
  | a :: as, c =>
    match check c a with
    | (.error d, c) => (.error d, c)
    | (.ok kept, c) =>
      match checkEach check as c with
      | (.error d, c) => (.error d, c)
      | (.ok rest, c) => (.ok (kept.toList ++ rest), c)

def process (c : Checker) (t : Target) (attrs : List RawAttr) (specifiers : Range) :
    Except Defect (List Attr) × Checker :=
  match checkEach (fun c a => c.checkOne t a specifiers) attrs c with
  | (.error d, c) => (.error d, c)
  | (.ok kept, c) => (.ok kept, c.reportAll (conflicts kept))

end Checker

def Stmt.withAttrs (s : Stmt) (attrs : List Attr) (specifiers : Range) : Stmt :=
  if attrs.isEmpty then s else attributed attrs s specifiers specifiers.start

end AttrCheck
