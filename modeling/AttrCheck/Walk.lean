import AttrCheck.Stmt

/-!
Walks through the statements of a unit: each statement before those inside it, in the order of the
source. A walk may stop at a class of nodes, which are then seen and not entered.
-/

namespace AttrCheck

inductive Visit where
  /-- A statement that was entered, with the kinds of its children. -/
  | entered (kind : StmtKind) (loc : Loc) (children : List StmtKind)
  /-- A node at which the walk stopped; a unit has no place. -/
  | stopped (className : String) (loc : Option Loc)
deriving DecidableEq

def Function.className : String := "FunctionDecl"

def SourceUnit.className : String := "TranslationUnit"

namespace Stmt

mutual

def walk (stop : Option String) (s : Stmt) : List Visit :=
  if stop = some s.kind.className then [.stopped s.kind.className (some s.loc)]
  else .entered s.kind s.loc (s.children.map kind) ::
    match s with
    | compound body _ => walkAll stop body
    | ifElse _ yes none _ => yes.walk stop
    | ifElse _ yes (some no) _ => yes.walk stop ++ no.walk stop
    | forLoop none _ _ body _ => body.walk stop
    | forLoop (some init) _ _ body _ => init.walk stop ++ body.walk stop
    | switch _ sub _ | caseLabel _ sub _ | defaultLabel sub _ | rangeFor _ _ sub _ _
    | whileLoop _ sub _ | doWhile sub _ _ | attributed _ sub _ _ | annotated _ sub _ _ =>
      sub.walk stop
    | null _ | expr _ _ | decl _ | ret _ _ | brk _ | cont _ => []

def walkAll (stop : Option String) : List Stmt → List Visit
  | [] => []
  | s :: ss => s.walk stop ++ walkAll stop ss

end

end Stmt

def Function.walk (stop : Option String) (f : Function) : List Visit :=
  if stop = some className then [.stopped className (some f.loc)] else f.body.walk stop

def SourceUnit.walk (stop : Option String) (u : SourceUnit) : List Visit :=
  if stop = some className then [.stopped className none]
  else u.functions.flatMap (Function.walk stop)

end AttrCheck
