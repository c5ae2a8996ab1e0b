import AttrCheck.Checker
import AttrCheck.Outline.Reading
import AttrCheck.Outline.Tree

/-!
Checks on nodes of any class. What is no statement takes part until the check asks what kind of
statement it is or, if it has no place, where it begins. The check fails there, and what it has
reported stays.
-/

namespace AttrCheck

inductive Subject where
  | stmt (t : Target)
  /-- A node that is no statement, with its place if it has one. -/
  | other (loc : Option Loc)

def Subject.ofOutline (o : Outline) : Subject :=
  match o.stmtKind?, o.place? with
  | some kind, some loc => stmt ⟨kind, loc⟩
  | _, loc => other loc

def Subject.loc? : Subject → Option Loc
  | stmt t => some t.loc
  | other loc => loc

namespace Checker

def checkOtherFallthrough (c : Checker) (loc : Option Loc) (a : RawAttr) :
    Except Defect (Option Attr) × Checker :=
  (.error .notAStatement, c.reportAll (loc.map fun l => a.notEmptyReport l []).toList)

def checkOther (c : Checker) (loc : Option Loc) (a : RawAttr) :
    Except Defect (Option Attr) × Checker :=
  match a.kind, loc with
  | .unknown, _ => (.ok none, c.report a.unknownReport)
  | .fallthrough, _ => (c.log [.dispatch .fallthrough a.loc]).checkOtherFallthrough loc a
  | .loopHint, _ => (.error .notAStatement, c.log [.dispatch .loopHint a.loc])
  | _, some l => (.ok none, c.report (a.declarationReport l))
  | _, none => (.error .notAStatement, c)

end Checker

namespace Subject

def checkFallthrough (s : Subject) (c : Checker) (a : RawAttr) (specifiers : Range) :
    Except Defect (Option Attr) × Checker :=
  match s with
  | stmt t => c.checkFallthrough t a specifiers
  | other loc => c.checkOtherFallthrough loc a

def checkLoopHint (s : Subject) (c : Checker) (a : RawAttr) (specifiers : Range) :
    Except Defect (Option Attr) × Checker :=
  match s with
  | stmt t => c.checkLoopHint t a specifiers
  | other _ => (.error .notAStatement, c)

def checkOne (s : Subject) (c : Checker) (a : RawAttr) (specifiers : Range) :
    Except Defect (Option Attr) × Checker :=
  match s with
  | stmt t => c.checkOne t a specifiers
  | other loc => c.checkOther loc a

def process (s : Subject) (c : Checker) (attrs : List RawAttr) (specifiers : Range) :
    Except Defect (List Attr) × Checker :=
  match s with
  | stmt t => c.process t attrs specifiers
  | other loc => Checker.checkEach (fun c a => c.checkOther loc a) attrs c

end Subject

def Outline.withAttrs (o : Outline) (attrs : List Attr) (specifiers : Range) : Outline :=
  if attrs.isEmpty then o
  else record (.stmt .attributed)
    [seq (attrs.map Attr.outline), o, range specifiers, loc specifiers.start]

theorem Stmt.outline_withAttrs (s : Stmt) (attrs : List Attr) (specifiers : Range) :
    (s.withAttrs attrs specifiers).outline = s.outline.withAttrs attrs specifiers := by
  unfold Stmt.withAttrs Outline.withAttrs
  split <;> rfl

end AttrCheck
