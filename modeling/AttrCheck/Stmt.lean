import AttrCheck.Attribute

/-!
Statements, functions and whole units. A statement carries attributes in one of two forms: as
written, before they are checked, and as those that passed the check.
-/

namespace AttrCheck

structure VarDecl where
  name : String
  typeName : String
  init : Option Expr
  isConst : Bool
  loc : Loc

inductive Stmt where
  | null (loc : Loc)
  | compound (body : List Stmt) (loc : Loc)
  | expr (e : Expr) (loc : Loc)
  | decl (d : VarDecl)
  | ret (value : Option Expr) (loc : Loc)
  | brk (loc : Loc)
  | cont (loc : Loc)
  | ifElse (cond : Expr) (yes : Stmt) (no : Option Stmt) (loc : Loc)
  | switch (cond : Expr) (body : Stmt) (loc : Loc)
  | caseLabel (value : Expr) (sub : Stmt) (loc : Loc)
  | defaultLabel (sub : Stmt) (loc : Loc)
  | forLoop (init : Option Stmt) (cond step : Option Expr) (body : Stmt) (loc : Loc)
  | rangeFor (var : String) (range : Expr) (body : Stmt) (typeName : String) (loc : Loc)
  | whileLoop (cond : Expr) (body : Stmt) (loc : Loc)
  | doWhile (body : Stmt) (cond : Expr) (loc : Loc)
  /-- With its checked attributes. -/
  | attributed (attrs : List Attr) (sub : Stmt) (range : Range) (loc : Loc)
  /-- With its attributes as written; `range` runs over all their specifiers. -/
  | annotated (attrs : List RawAttr) (sub : Stmt) (range : Range) (loc : Loc)

inductive StmtKind where
  | null | compound | expr | decl | ret | brk | cont | ifElse | switch | caseLabel
  | defaultLabel | forLoop | rangeFor | whileLoop | doWhile | attributed | annotated
deriving DecidableEq

namespace StmtKind

def all : List StmtKind :=
  [null, compound, expr, decl, ret, brk, cont, ifElse, switch, caseLabel, defaultLabel,
    forLoop, rangeFor, whileLoop, doWhile, attributed, annotated]

def label : StmtKind → String
  | null => "NULL"
  | compound => "COMPOUND"
  | expr => "EXPR"
  | decl => "DECL"
  | ret => "RETURN"
  | brk => "BREAK"
  | cont => "CONTINUE"
  | ifElse => "IF"
  | switch => "SWITCH"
  | caseLabel => "CASE"
  | defaultLabel => "DEFAULT"
  | forLoop => "FOR"
  | rangeFor => "RANGE_FOR"
  | whileLoop => "WHILE"
  | doWhile => "DO"
  | attributed => "ATTRIBUTED"
  | annotated => "PARSED_ATTRIBUTED"

def className : StmtKind → String
  | null => "NullStmt"
  | compound => "CompoundStmt"
  | expr => "ExprStmt"
  | decl => "DeclStmt"
  | ret => "ReturnStmt"
  | brk => "BreakStmt"
  | cont => "ContinueStmt"
  | ifElse => "IfStmt"
  | switch => "SwitchStmt"
  | caseLabel => "CaseStmt"
  | defaultLabel => "DefaultStmt"
  | forLoop => "ForStmt"
  | rangeFor => "RangeForStmt"
  | whileLoop => "WhileStmt"
  | doWhile => "DoStmt"
  | attributed => "AttributedStmt"
  | annotated => "ParsedAttributedStmt"

def isLoop : StmtKind → Bool
  | forLoop | rangeFor | whileLoop | doWhile => true
  | _ => false

def isSwitchLabel : StmtKind → Bool
  | caseLabel | defaultLabel => true
  | _ => false

end StmtKind

namespace Stmt

def kind : Stmt → StmtKind
  | null _ => .null
  | compound _ _ => .compound
  | expr _ _ => .expr
  | decl _ => .decl
  | ret _ _ => .ret
  | brk _ => .brk
  | cont _ => .cont
  | ifElse _ _ _ _ => .ifElse
  | switch _ _ _ => .switch
  | caseLabel _ _ _ => .caseLabel
  | defaultLabel _ _ => .defaultLabel
  | forLoop _ _ _ _ _ => .forLoop
  | rangeFor _ _ _ _ _ => .rangeFor
  | whileLoop _ _ _ => .whileLoop
  | doWhile _ _ _ => .doWhile
  | attributed _ _ _ _ => .attributed
  | annotated _ _ _ _ => .annotated

def loc : Stmt → Loc
  | null l | compound _ l | expr _ l | ret _ l | brk l | cont l | ifElse _ _ _ l
  | switch _ _ l | caseLabel _ _ l | defaultLabel _ l | forLoop _ _ _ _ l
  | rangeFor _ _ _ _ l | whileLoop _ _ l | doWhile _ _ l | attributed _ _ _ l
  | annotated _ _ _ l => l
  | decl d => d.loc

def isLoop (s : Stmt) : Bool := s.kind.isLoop

def isSwitchLabel (s : Stmt) : Bool := s.kind.isSwitchLabel

def children : Stmt → List Stmt
  | compound body _ => body
  | ifElse _ yes no _ => yes :: no.toList
  | forLoop init _ _ body _ => init.toList ++ [body]
  | switch _ sub _ | caseLabel _ sub _ | defaultLabel sub _ | rangeFor _ _ sub _ _
  | whileLoop _ sub _ | doWhile sub _ _ | attributed _ sub _ _ | annotated _ sub _ _ => [sub]
  | null _ | expr _ _ | decl _ | ret _ _ | brk _ | cont _ => []

end Stmt

structure Function where
  name : String
  body : Stmt
  params : List String
  templateParams : List String
  returnType : String
  loc : Loc

structure SourceUnit where
  functions : List Function
  globals : List VarDecl
  file : String

end AttrCheck
