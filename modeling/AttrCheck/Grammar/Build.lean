import AttrCheck.Grammar.Unit

/-!
Building the tree of a text that the grammar has read. The host converts the digits of a literal to
its number, unless there are more than it takes, and an operator is looked up by its symbol. What
stands inside a node is built in front of it, from left to right, and the first failure ends all.
-/

namespace AttrCheck

/-- How many decimal digits the host takes where it makes a number of text or text of a number. -/
structure DigitLimit where
  most : Option Nat
  /-- The host can be given no lower limit than this. -/
  least : ∀ m ∈ most, 640 ≤ m

namespace DigitLimit

def unbounded : DigitLimit := ⟨none, nofun⟩

def standard : DigitLimit := ⟨some 4300, by simp⟩

def admits (limit : DigitLimit) (count : Nat) : Bool := limit.most.all (count ≤ ·)

def canWrite (limit : DigitLimit) (n : Int) : Bool := limit.most.all (n.natAbs < Nat.pow 10 ·)

end DigitLimit

inductive BuildError where
  | notANumber
  | tooManyDigits
  | noOperator
deriving DecidableEq

variable (limit : DigitLimit)

def isDigitOf (base : Nat) (c : Char) : Bool := isHexDigit c && hexValue c < base

/-- Makes a number of digits. They are counted in base ten only: where the base is a power of two,
the host takes any number of them. -/
def convert (base : Nat) (digits : List Char) : Except BuildError Nat :=
  if digits.isEmpty || !digits.all (isDigitOf base) then .error .notANumber
  else if base = 10 && !limit.admits digits.length then .error .tooManyDigits
  else .ok (ofDigits base digits)

def bareValue : List Char → Except BuildError Nat
  | '0' :: 'x' :: cs | '0' :: 'X' :: cs => convert limit 16 cs
  | '0' :: 'b' :: cs | '0' :: 'B' :: cs => convert limit 2 cs
  | '0' :: c :: cs => convert limit 8 (c :: cs)
  | cs => convert limit 10 cs

def literalValue (text : String) : Except BuildError Nat :=
  bareValue limit (text.toList.reverse.dropWhile isSuffixChar).reverse

def integerValue (text : String) : Except BuildError Int :=
  if text = "true" then .ok 1
  else if text = "false" then .ok 0
  else (literalValue limit text).map Int.ofNat

def found {α : Type} : Option α → Except BuildError α
  | none => .error .noOperator
  | some a => .ok a

def UnaryOp.lookUp (op : UnaryOp) : Except BuildError UnaryOp :=
  found (if op.isFront then ofFront? op.symbol else ofBack? op.symbol)

def BinaryOp.lookUp (op : BinaryOp) : Except BuildError BinaryOp := found (ofSymbol? op.symbol)

namespace Expr

mutual

def build : Expr → Except BuildError Expr
  | int _ text l => do return .int (← integerValue limit text) text l
  | string value l => .ok (.string value l)
  | name n b l => .ok (.name n b l)
  | paren inner l => do return .paren (← inner.build) l
  | unary op operand l => do
    let operand ← operand.build
    return .unary (← op.lookUp) operand l
  | binary op lhs rhs l => do
    let lhs ← lhs.build
    let rhs ← rhs.build
    return .binary (← op.lookUp) lhs rhs l
  | conditional c yes no l => do
    return .conditional (← c.build) (← yes.build) (← no.build) l
  | call callee args l => do return .call (← callee.build) (← buildAll args) l
  | assign op target value l => do return .assign op (← target.build) (← value.build) l

def buildAll : List Expr → Except BuildError (List Expr)
  | [] => .ok []
  | e :: es => do return (← e.build) :: (← buildAll es)

end

end Expr

def Arg.build : Arg → Except BuildError Arg
  | ident i => .ok (.ident i)
  | expr e => do return .expr (← e.build limit)

def RawAttr.build (a : RawAttr) : Except BuildError RawAttr := do
  return { a with args := ← a.args.mapM fun place => place.mapM (Arg.build limit) }

def VarDecl.build (d : VarDecl) : Except BuildError VarDecl := do
  return { d with init := ← d.init.mapM (Expr.build limit) }

namespace Stmt

mutual

def build : Stmt → Except BuildError Stmt
  | compound body l => do return .compound (← buildAll body) l
  | expr e l => do return .expr (← e.build limit) l
  | decl d => do return .decl (← d.build limit)
  | ret value l => do return .ret (← value.mapM (Expr.build limit)) l
  | ifElse c yes no l => do
    return .ifElse (← c.build limit) (← yes.build) (← buildOpt no) l
  | switch c body l => do return .switch (← c.build limit) (← body.build) l
  | caseLabel value sub l => do return .caseLabel (← value.build limit) (← sub.build) l
  | defaultLabel sub l => do return .defaultLabel (← sub.build) l
  | forLoop init c step body l => do
    let init ← buildOpt init
    let c ← c.mapM (Expr.build limit)
    let step ← step.mapM (Expr.build limit)
    return .forLoop init c step (← body.build) l
  | rangeFor var range body typeName l => do
    return .rangeFor var (← range.build limit) (← body.build) typeName l
  | whileLoop c body l => do return .whileLoop (← c.build limit) (← body.build) l
  | doWhile body c l => do return .doWhile (← body.build) (← c.build limit) l
  | attributed attrs sub range l => do return .attributed attrs (← sub.build) range l
  | annotated attrs sub range l => do
    return .annotated (← attrs.mapM (RawAttr.build limit)) (← sub.build) range l
  | null l => .ok (.null l)
  | brk l => .ok (.brk l)
  | cont l => .ok (.cont l)

def buildAll : List Stmt → Except BuildError (List Stmt)
  | [] => .ok []
  | s :: ss => do return (← s.build) :: (← buildAll ss)

def buildOpt : Option Stmt → Except BuildError (Option Stmt)
  | none => .ok none
  | some s => do return some (← s.build)

end

end Stmt

def Function.build (f : Function) : Except BuildError Function := do
  return { f with body := ← f.body.build limit }

def SourceUnit.build (u : SourceUnit) : Except BuildError SourceUnit := do
  return { u with
    functions := ← u.functions.mapM (Function.build limit)
    globals := ← u.globals.mapM (VarDecl.build limit) }

end AttrCheck
