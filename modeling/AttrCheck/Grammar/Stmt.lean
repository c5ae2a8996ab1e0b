import AttrCheck.Grammar.Attribute
import AttrCheck.Stmt

/-!
The grammar of statements. As with expressions, a statement inside another begins behind at least
one character of it, and the allowance counts how deep they may go.
-/

namespace AttrCheck

namespace Parser

variable (n : Nat)

def spacedExpr : Parser Expr := spaced (expr n)

def condition : Parser Expr := spaced (parens (expr n))

def initializer : Parser Expr := do
  symbolNotBefore "=" ['=']
  let value ← spacedExpr n
  layout
  return value

def variableDecl : Parser VarDecl := do
  let loc ← here
  let type ← typeName n
  let name ← spaced name
  layout
  let init ← maybe (initializer n)
  symbol ";"
  return { name, typeName := type.text, init, isConst := type.isConst, loc }

def declStmt : Parser Stmt := do return .decl (← variableDecl n)

def exprStmt : Parser Stmt := do
  let start ← here
  let e ← expr n
  spaced (symbol ";")
  return .expr e start

def nullStmt : Parser Stmt := do
  let start ← here
  symbol ";"
  return .null start

def loopInit : Parser (Option Stmt) :=
  firstOf [some <$> declStmt n, some <$> exprStmt n, nullStmt *> pure none]

def wordStmt (word : String) (make : Loc → Stmt) : Parser Stmt := do
  let start ← here
  keyword word
  spaced (symbol ";")
  return make start

def returnStmt : Parser Stmt := do
  let start ← here
  keyword "return"
  let value ← spaced (maybe (expr n))
  spaced (symbol ";")
  return .ret value start

variable (inner : Parser Stmt)

def annotatedStmt : Parser Stmt := do
  let spec ← specifiers n (expr n)
  let sub ← spaced inner
  return .annotated spec.attrs sub spec.range spec.range.start

def caseStmt : Parser Stmt := do
  let start ← here
  keyword "case"
  let value ← spacedExpr n
  spaced (symbol ":")
  let sub ← spaced inner
  return .caseLabel value sub start

def defaultStmt : Parser Stmt := do
  let start ← here
  keyword "default"
  spaced (symbol ":")
  let sub ← spaced inner
  return .defaultLabel sub start

def compoundStmt : Parser Stmt := do
  let start ← here
  symbol "\x7b"
  layout
  let body ← many (inner <* layout) n
  symbol "\x7d"
  return .compound body start

def ifStmt : Parser Stmt := do
  let start ← here
  keyword "if"
  let cond ← condition n
  let yes ← spaced inner
  let no ← maybe (do
    spaced (keyword "else")
    spaced inner)
  return .ifElse cond yes no start

def conditionStmt (word : String) (make : Expr → Stmt → Loc → Stmt) : Parser Stmt := do
  let start ← here
  keyword word
  let cond ← condition n
  let body ← spaced inner
  return make cond body start

def doStmt : Parser Stmt := do
  let start ← here
  keyword "do"
  let body ← spaced inner
  spaced (keyword "while")
  let cond ← condition n
  spaced (symbol ";")
  return .doWhile body cond start

def rangeForStmt : Parser Stmt := do
  let start ← here
  keyword "for"
  spaced (symbol "(")
  let type ← spaced (typeName n)
  let var ← spaced name
  spaced (symbol ":")
  let range ← spacedExpr n
  spaced (symbol ")")
  let body ← spaced inner
  return .rangeFor var range body type.text start

def forStmt : Parser Stmt := do
  let start ← here
  keyword "for"
  spaced (symbol "(")
  let init ← spaced (loopInit n)
  let cond ← spaced (maybe (expr n))
  spaced (symbol ";")
  let step ← spaced (maybe (expr n))
  spaced (symbol ")")
  let body ← spaced inner
  return .forLoop init cond step body start

def stmtWith : Parser Stmt :=
  firstOf
    [annotatedStmt n inner, caseStmt n inner, defaultStmt inner, compoundStmt n inner,
      ifStmt n inner, conditionStmt n inner "switch" .switch,
      conditionStmt n inner "while" .whileLoop, doStmt n inner, rangeForStmt n inner,
      forStmt n inner, wordStmt "break" .brk, wordStmt "continue" .cont, returnStmt n,
      declStmt n, nullStmt, exprStmt n]

end Parser

def Parser.stmt : Nat → Parser Stmt
  | 0 => failure
  | n + 1 => stmtWith (n + 1) (stmt n)

end AttrCheck
