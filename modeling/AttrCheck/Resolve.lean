import AttrCheck.Checker
import AttrCheck.Scope

/-!
Resolving the attributes of a unit. The walk goes through every function body with the scopes of
names, checks the attributes of each statement once its inside is done, and puts those that stay in
the place of those that were written.
-/

namespace AttrCheck

structure Resolver where
  checker : Checker
  scopes : Scopes
  /-- The attributes that stayed, in the order of their checks. -/
  attributes : List Attr

namespace Resolver

def new (config : Config) : Resolver := ⟨Checker.new config, [[]], []⟩

def declare (r : Resolver) (d : VarDecl) : Resolver :=
  { r with scopes := r.scopes.declareVar d }

def enterScope (r : Resolver) (scope : Scope) : Resolver :=
  { r with scopes := scope :: r.scopes }

def leaveScope (r : Resolver) : Resolver := { r with scopes := r.scopes.tail }

def enterSwitch (r : Resolver) (loc : Loc) : Except Defect Resolver := do
  let checker ← r.checker.pushSwitch loc
  return { r with checker }

def leaveSwitch (r : Resolver) : Except Defect Resolver := do
  let (_, checker) ← r.checker.popSwitch
  return { r with checker }

def enterFunction (r : Resolver) (f : Function) : Resolver :=
  { (r.enterScope f.scope) with checker := r.checker.pushFunction f.name }

def leaveFunction (r : Resolver) : Except Defect Resolver := do
  let (_, checker) ← r.checker.popFunction
  return { r.leaveScope with checker }

def settle (r : Resolver) (s : Stmt) (attrs : List RawAttr) (specifiers : Range) :
    Except Defect (Stmt × Resolver) :=
  match r.checker.process s.target (attrs.map (RawAttr.bound r.scopes)) specifiers with
  | (.error d, _) => .error d
  | (.ok kept, checker) =>
    .ok (s.withAttrs kept specifiers, { r with checker, attributes := r.attributes ++ kept })

end Resolver

namespace Stmt

mutual

def resolve (r : Resolver) : Stmt → Except Defect (Stmt × Resolver)
  | null l => .ok (null l, r)
  | expr e l => .ok (expr e l, r)
  | ret value l => .ok (ret value l, r)
  | brk l => .ok (brk l, r)
  | cont l => .ok (cont l, r)
  | decl d => .ok (decl d, r.declare d)
  | compound body l => do
    let (body, r) ← resolveAll (r.enterScope []) body
    return (compound body l, r.leaveScope)
  | ifElse c yes none l => do
    let (yes, r) ← yes.resolve r
    return (ifElse c yes none l, r)
  | ifElse c yes (some no) l => do
    let (yes, r) ← yes.resolve r
    let (no, r) ← no.resolve r
    return (ifElse c yes (some no) l, r)
  | switch c body l => do
    let r ← r.enterSwitch l
    let (body, r) ← body.resolve r
    let r ← r.leaveSwitch
    return (switch c body l, r)
  | caseLabel value sub l => do
    let (sub, r) ← sub.resolve r
    return (caseLabel value sub l, r)
  | defaultLabel sub l => do
    let (sub, r) ← sub.resolve r
    return (defaultLabel sub l, r)
  | forLoop none c step body l => do
    let (body, r) ← body.resolve (r.enterScope [])
    return (forLoop none c step body l, r.leaveScope)
  | forLoop (some init) c step body l => do
    let (init, r) ← init.resolve (r.enterScope [])
    let (body, r) ← body.resolve r
    return (forLoop (some init) c step body l, r.leaveScope)
  | rangeFor var range body typeName l => do
    let (body, r) ← body.resolve (r.enterScope [(var, .runtime)])
    return (rangeFor var range body typeName l, r.leaveScope)
  | whileLoop c body l => do
    let (body, r) ← body.resolve r
    return (whileLoop c body l, r)
  | doWhile body c l => do
    let (body, r) ← body.resolve r
    return (doWhile body c l, r)
  | attributed attrs sub range l => do
    let (sub, r) ← sub.resolve r
    return (attributed attrs sub range l, r)
  | annotated attrs sub range _ => do
    let (sub, r) ← sub.resolve r
    r.settle sub attrs range

def resolveAll (r : Resolver) : List Stmt → Except Defect (List Stmt × Resolver)
  | [] => .ok ([], r)
  | s :: ss => do
    let (s, r) ← s.resolve r
    let (ss, r) ← resolveAll r ss
    return (s :: ss, r)

end

end Stmt

namespace Function

def resolve (r : Resolver) (f : Function) : Except Defect (Function × Resolver) := do
  let (body, r) ← f.body.resolve (r.enterFunction f)
  let r ← r.leaveFunction
  return ({ f with body }, r)

def resolveAll (r : Resolver) : List Function → Except Defect (List Function × Resolver)
  | [] => .ok ([], r)
  | f :: fs => do
    let (f, r) ← f.resolve r
    let (fs, r) ← resolveAll r fs
    return (f :: fs, r)

end Function

structure CheckResult where
  unit : SourceUnit
  engine : Engine
  attributes : List Attr
  events : List Event

namespace CheckResult

def diagnostics (c : CheckResult) : List Diagnostic := c.engine.recorded

end CheckResult

namespace SourceUnit

def resolve (r : Resolver) (u : SourceUnit) : Except Defect (SourceUnit × Resolver) := do
  let (functions, r) ← Function.resolveAll (u.globals.foldl Resolver.declare r) u.functions
  return ({ u with functions }, r)

def check (u : SourceUnit) (config : Config) : Except Defect CheckResult := do
  let (unit, r) ← u.resolve (Resolver.new config)
  let engine := r.checker.engine
  let summary := Event.checked u.file r.attributes.length engine.errorCount engine.warningCount
  return ⟨unit, engine, r.attributes, r.checker.events ++ [summary]⟩

end SourceUnit

end AttrCheck
