import AttrCheck.Grammar.Lexeme
import AttrCheck.Expr

/-!
The grammar of expressions, with the precedences of C. An expression is read with an allowance:
every expression inside another begins behind at least one character of it, so that the number of
characters left suffices.
-/

namespace AttrCheck

/-- The binary operators by level, loosest first; each with the characters that may not follow it
because they would make another operator of it. -/
def binaryLevels : List (List (BinaryOp × List Char)) :=
  [[(.lor, [])],
    [(.land, [])],
    [(.bor, ['|', '='])],
    [(.bxor, ['='])],
    [(.band, ['&', '='])],
    [(.eq, []), (.ne, [])],
    [(.le, []), (.ge, []), (.lt, ['<', '=']), (.gt, ['>', '='])],
    [(.shl, ['=']), (.shr, ['='])],
    [(.add, ['-', '+', '=']), (.sub, ['-', '+', '='])],
    [(.mul, ['=']), (.div, ['=']), (.rem, ['='])]]

def assignSymbols : List String :=
  ["<<=", ">>=", "-=", "+=", "*=", "/=", "%=", "&=", "^=", "|=", "="]

inductive PostfixOp where
  | call (args : List Expr)
  | step (op : UnaryOp)

namespace PostfixOp

def apply (start : Loc) (e : Expr) : PostfixOp → Expr
  | call args => .call e args start
  | step op => .unary op e start

end PostfixOp

def joinLeft (start : Loc) (first : Expr) (rest : List (BinaryOp × Expr)) : Expr :=
  rest.foldl (fun lhs (op, rhs) => .binary op lhs rhs start) first

/-- Joins the arms of a chain of conditionals from the right. An arm is the value if the condition
before it holds, the condition that follows, and where that begins. -/
def joinArms (start : Loc) (cond : Expr) : List (Expr × Expr × Loc) → Expr
  | [] => cond
  | (yes, next, loc) :: rest => .conditional cond yes (joinArms loc next rest) start

namespace Parser

def frontOp : Parser UnaryOp :=
  firstOf
    [symbol "++" *> pure .preInc,
      symbol "--" *> pure .preDec,
      symbolNotBefore "-" ['='] *> pure .minus,
      symbolNotBefore "+" ['='] *> pure .plus,
      symbolNotBefore "!" ['='] *> pure .lnot,
      symbolNotBefore "~" ['='] *> pure .bnot]

def binaryOp (level : List (BinaryOp × List Char)) : Parser BinaryOp :=
  firstOf (level.map fun (op, bad) => symbolNotBefore op.symbol bad *> pure op)

def assignOp : Parser String :=
  firstOf (assignSymbols.map fun s => symbolNotBefore s ['='] *> pure s)

def boolWord : Parser (Int × String) :=
  firstOf [theWord "true" *> pure (1, "true"), theWord "false" *> pure (0, "false")]

variable (n : Nat) (inner : Parser Expr)

def arguments : Parser (List Expr) := parens (orElse (commaList inner n) [])

def primary : Parser Expr := do
  let start ← here
  firstOf
    [do
        let (value, text) ← number
        return .int value text start,
      do return .string (← stringLiteral) start,
      do
        let (value, text) ← boolWord
        return .int value text start,
      do return .paren (← parens inner) start,
      do return .name (← name) .runtime start]

def postfixOp : Parser PostfixOp :=
  firstOf
    [do return .call (← arguments n inner),
      symbol "++" *> pure (.step .postInc),
      symbol "--" *> pure (.step .postDec)]

def postfixExpr : Parser Expr := do
  let start ← here
  let operand ← primary inner
  let ops ← many (spaced (postfixOp n inner)) n
  return ops.foldl (PostfixOp.apply start) operand

def unary : Parser Expr := do
  let fronts ← many (do
    let start ← here
    let op ← frontOp
    layout
    return (op, start)) n
  let operand ← postfixExpr n inner
  return fronts.foldr (fun (op, start) e => .unary op e start) operand

def chainFrom (start : Loc) (first : Expr) : List (List (BinaryOp × List Char)) → Parser Expr
  | [] => pure first
  | level :: tighter => do
    let lhs ← chainFrom start first tighter
    let rest ← many (do
      let op ← spaced (binaryOp level)
      layout
      let loc ← here
      let operand ← unary n inner
      let rhs ← chainFrom loc operand tighter
      return (op, rhs)) n
    return joinLeft start lhs rest

def conditionalFrom (start : Loc) (first : Expr) : Parser Expr := do
  let cond ← chainFrom n inner start first binaryLevels
  let arms ← many (do
    spaced (symbol "?")
    let yes ← spaced inner
    spaced (symbol ":")
    layout
    let loc ← here
    let operand ← unary n inner
    let next ← chainFrom n inner loc operand binaryLevels
    return (yes, next, loc)) n
  return joinArms start cond arms

def assignFrom (start : Loc) (target : Expr) : Parser Expr := do
  let op ← spaced assignOp
  let value ← spaced inner
  return .assign op target value start

def exprWith : Parser Expr := do
  let start ← here
  let operand ← unary n inner
  assignFrom inner start operand <|> conditionalFrom n inner start operand

end Parser

def Parser.expr : Nat → Parser Expr
  | 0 => failure
  | n + 1 => exprWith (n + 1) (expr n)

end AttrCheck
