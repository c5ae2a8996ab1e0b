import AttrCheck.Stmt

/-!
Transforming statements by rules. A rule replaces every statement of its kind, without looking
inside; a statement without a rule is rebuilt when something inside it changed and is left alone
otherwise. Nothing in place of a result says that the statement itself came back.
-/

namespace AttrCheck

inductive TransformAction where
  | keep
  /-- The statement inside a label or behind attributes. -/
  | unwrap
  | toNull
  | toBreak
  | toContinue
deriving DecidableEq

abbrev TransformRules := StmtKind → Option TransformAction

structure UnitRules where
  stmts : TransformRules
  functions : Option TransformAction := none
  unit : Option TransformAction := none

inductive TransformError where
  /-- A statement to be unwrapped has no statement inside that could take its place. -/
  | notWrapped (kind : StmtKind)
  /-- A function or a unit is to be replaced by a statement. -/
  | notAStatement
deriving DecidableEq

namespace Stmt

def wrapped? : Stmt → Option Stmt
  | caseLabel _ sub _ | defaultLabel sub _ | attributed _ sub _ _ | annotated _ sub _ _ => some sub
  | _ => none

def applyAction (s : Stmt) : TransformAction → Except TransformError (Option Stmt)
  | .keep => .ok none
  | .unwrap =>
    match s.wrapped? with
    | some sub => .ok (some sub)
    | none => .error (.notWrapped s.kind)
  | .toNull => .ok (some (null s.loc))
  | .toBreak => .ok (some (brk s.loc))
  | .toContinue => .ok (some (cont s.loc))

def merge (ss : List Stmt) (changes : List (Option Stmt)) : List Stmt :=
  List.zipWith (fun s change => change.getD s) ss changes

mutual

def transform (rules : TransformRules) (s : Stmt) : Except TransformError (Option Stmt) :=
  match rules s.kind with
  | some action => s.applyAction action
  | none =>
    match s with
    | null _ | expr _ _ | decl _ | ret _ _ | brk _ | cont _ => .ok none
    | compound body l => do
      let changes ← transformAll rules body
      return if changes.all Option.isNone then none else some (compound (merge body changes) l)
    | ifElse c yes none l => do
      return (← yes.transform rules).map fun yes => ifElse c yes none l
    | ifElse c yes (some no) l => do
      match ← yes.transform rules, ← no.transform rules with
      | none, none => return none
      | yes', no' => return some (ifElse c (yes'.getD yes) (some (no'.getD no)) l)
    | switch c sub l => do return (← sub.transform rules).map fun sub => switch c sub l
    | caseLabel value sub l => do
      return (← sub.transform rules).map fun sub => caseLabel value sub l
    | defaultLabel sub l => do return (← sub.transform rules).map fun sub => defaultLabel sub l
    | forLoop none c step sub l => do
      return (← sub.transform rules).map fun sub => forLoop none c step sub l
    | forLoop (some init) c step sub l => do
      match ← init.transform rules, ← sub.transform rules with
      | none, none => return none
      | init', sub' => return some (forLoop (some (init'.getD init)) c step (sub'.getD sub) l)
    | rangeFor var range sub typeName l => do
      return (← sub.transform rules).map fun sub => rangeFor var range sub typeName l
    | whileLoop c sub l => do return (← sub.transform rules).map fun sub => whileLoop c sub l
    | doWhile sub c l => do return (← sub.transform rules).map fun sub => doWhile sub c l
    | attributed attrs sub range l => do
      return (← sub.transform rules).map fun sub => attributed attrs sub range l
    | annotated attrs sub range l => do
      return (← sub.transform rules).map fun sub => annotated attrs sub range l

def transformAll (rules : TransformRules) : List Stmt → Except TransformError (List (Option Stmt))
  | [] => .ok []
  | s :: ss => do
    let s ← s.transform rules
    let ss ← transformAll rules ss
    return s :: ss

end

/-- For each statement of a block, whether it itself is still in its place afterwards; nothing if
no block came back. -/
def keptInBody (rules : TransformRules) (s : Stmt) :
    Except TransformError (Option (List Bool)) := do
  match s, ← s.transform rules with
  | compound body _, none => return some (body.map fun _ => true)
  | compound body _, some (compound _ _) =>
    return some ((← transformAll rules body).map Option.isNone)
  | _, _ => return none

end Stmt

namespace Function

def transform (rules : TransformRules) (f : Function) :
    Except TransformError (Option Function) := do
  return (← f.body.transform rules).map fun body => { f with body }

end Function

structure UnitTransform where
  unit : Option SourceUnit
  functions : List (Option Function)
  /-- For each function, the statements that kept their places directly in its body. -/
  kept : List (Option (List Bool))

namespace UnitRules

def inBodies (r : UnitRules) : TransformRules :=
  if r.unit.isSome || r.functions.isSome then fun _ => none else r.stmts

def replaceWhole (r : UnitRules) (u : SourceUnit) : Bool :=
  match r.unit with
  | some action => action ≠ .keep
  | none => r.functions.any (· ≠ .keep) && !u.functions.isEmpty

end UnitRules

def SourceUnit.transform (r : UnitRules) (u : SourceUnit) :
    Except TransformError UnitTransform := do
  if r.replaceWhole u then throw .notAStatement
  let rules := r.inBodies
  let changes ← u.functions.mapM (Function.transform rules)
  let kept ← u.functions.mapM fun f => f.body.keptInBody rules
  let functions := List.zipWith (fun f change => change.getD f) u.functions changes
  return ⟨if changes.all Option.isNone then none else some { u with functions }, changes, kept⟩

end AttrCheck
