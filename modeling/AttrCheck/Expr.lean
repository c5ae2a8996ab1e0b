import AttrCheck.Loc

/-!
Expressions, as the arguments of attributes and the parts of statements hold them. A name carries
what its declaration makes known of it; a name that nothing binds is a value of the run.
-/

namespace AttrCheck

inductive UnaryOp where
  | plus | minus | lnot | bnot | preInc | preDec | postInc | postDec
deriving DecidableEq

inductive BinaryOp where
  | mul | div | rem | add | sub | shl | shr | lt | gt | le | ge | eq | ne
  | band | bxor | bor | land | lor
deriving DecidableEq

namespace UnaryOp

def all : List UnaryOp := [plus, minus, lnot, bnot, preInc, preDec, postInc, postDec]

def label : UnaryOp → String
  | plus => "PLUS"
  | minus => "MINUS"
  | lnot => "NOT"
  | bnot => "BITNOT"
  | preInc => "PRE_INC"
  | preDec => "PRE_DEC"
  | postInc => "POST_INC"
  | postDec => "POST_DEC"

def symbol : UnaryOp → String
  | plus => "+"
  | minus => "-"
  | lnot => "!"
  | bnot => "~"
  | preInc | postInc => "++"
  | preDec | postDec => "--"

def assigns : UnaryOp → Bool
  | preInc | preDec | postInc | postDec => true
  | _ => false

def isFront : UnaryOp → Bool
  | postInc | postDec => false
  | _ => true

def ofFront? : String → Option UnaryOp
  | "+" => some plus
  | "-" => some minus
  | "!" => some lnot
  | "~" => some bnot
  | "++" => some preInc
  | "--" => some preDec
  | _ => none

def ofBack? : String → Option UnaryOp
  | "++" => some postInc
  | "--" => some postDec
  | _ => none

end UnaryOp

namespace BinaryOp

def all : List BinaryOp :=
  [mul, div, rem, add, sub, shl, shr, lt, gt, le, ge, eq, ne, band, bxor, bor, land, lor]

def label : BinaryOp → String
  | mul => "MUL"
  | div => "DIV"
  | rem => "REM"
  | add => "ADD"
  | sub => "SUB"
  | shl => "SHL"
  | shr => "SHR"
  | lt => "LT"
  | gt => "GT"
  | le => "LE"
  | ge => "GE"
  | eq => "EQ"
  | ne => "NE"
  | band => "BIT_AND"
  | bxor => "BIT_XOR"
  | bor => "BIT_OR"
  | land => "LAND"
  | lor => "LOR"

def symbol : BinaryOp → String
  | mul => "*"
  | div => "/"
  | rem => "%"
  | add => "+"
  | sub => "-"
  | shl => "<<"
  | shr => ">>"
  | lt => "<"
  | gt => ">"
  | le => "<="
  | ge => ">="
  | eq => "=="
  | ne => "!="
  | band => "&"
  | bxor => "^"
  | bor => "|"
  | land => "&&"
  | lor => "||"

def ofSymbol? (s : String) : Option BinaryOp := all.find? (·.symbol = s)

theorem ofSymbol?_symbol (op : BinaryOp) : ofSymbol? op.symbol = some op := by
  cases op <;> decide

end BinaryOp

/-- What is known of a name: a constant value, or that a template parameter decides it. -/
structure Binding where
  constant : Option Int
  isTemplateParam : Bool
deriving DecidableEq

namespace Binding

def runtime : Binding := ⟨none, false⟩

def ofConstant (value : Option Int) : Binding := ⟨value, false⟩

def templateParam : Binding := ⟨none, true⟩

end Binding

inductive Expr where
  /-- An integer; `text` keeps how it was written. -/
  | int (value : Int) (text : String) (loc : Loc)
  | string (value : String) (loc : Loc)
  | name (name : String) (binding : Binding) (loc : Loc)
  | paren (inner : Expr) (loc : Loc)
  | unary (op : UnaryOp) (operand : Expr) (loc : Loc)
  | binary (op : BinaryOp) (lhs rhs : Expr) (loc : Loc)
  | conditional (cond yes no : Expr) (loc : Loc)
  | call (callee : Expr) (args : List Expr) (loc : Loc)
  /-- Simple or compound assignment; `op` is its symbol. -/
  | assign (op : String) (target value : Expr) (loc : Loc)

namespace Expr

def loc : Expr → Loc
  | int _ _ l | string _ l | name _ _ l | paren _ l | unary _ _ l | binary _ _ _ l
  | conditional _ _ _ l | call _ _ l | assign _ _ _ l => l

end Expr

end AttrCheck
