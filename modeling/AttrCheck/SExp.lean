import AttrCheck.Text.Quoted
import AttrCheck.Stmt

/-!
S-expressions, and those of expressions, statements, attributes and units. Parentheses, places and
the way a literal was spelled leave no trace; a missing part is the symbol `nil`.
-/

namespace AttrCheck

inductive SExp where
  | symbol (s : String)
  | int (n : Int)
  | string (s : String)
  | list (items : List SExp)

namespace SExp

mutual

def text : SExp → String
  | symbol s => Text.sexpSymbol s
  | int n => toString n
  | string s => Text.sexpQuote s
  | list items => "(" ++ String.intercalate " " (texts items) ++ ")"

def texts : List SExp → List String
  | [] => []
  | e :: es => e.text :: texts es

end

mutual

def numbers : SExp → List Int
  | int n => [n]
  | list items => allNumbers items
  | symbol _ | string _ => []

def allNumbers : List SExp → List Int
  | [] => []
  | e :: es => e.numbers ++ allNumbers es

end

def nil : SExp := symbol "nil"

def form (head : String) (items : List SExp) : SExp := list (symbol head :: items)

end SExp

open SExp

def UnaryOp.sexpHead : UnaryOp → String
  | plus => "+"
  | minus => "-"
  | lnot => "!"
  | bnot => "~"
  | preInc => "pre++"
  | preDec => "pre--"
  | postInc => "post++"
  | postDec => "post--"

namespace Expr

mutual

def sexp : Expr → SExp
  | int value _ _ => .int value
  | string value _ => .string value
  | name n _ _ => symbol n
  | paren inner _ => inner.sexp
  | unary op operand _ => form op.sexpHead [operand.sexp]
  | binary op lhs rhs _ => form op.symbol [lhs.sexp, rhs.sexp]
  | conditional c yes no _ => form "?:" [c.sexp, yes.sexp, no.sexp]
  | call callee args _ => form "call" (callee.sexp :: sexps args)
  | assign op target value _ => form op [target.sexp, value.sexp]

def sexps : List Expr → List SExp
  | [] => []
  | e :: es => e.sexp :: sexps es

end

theorem sexps_eq_map (es : List Expr) : sexps es = es.map sexp := by
  induction es with
  | nil => rfl
  | cons e es ih => simp [sexps, ih]

def optSexp : Option Expr → SExp
  | none => nil
  | some e => e.sexp

end Expr

def Ident.sexp (i : Ident) : SExp :=
  match i.name with
  | none => nil
  | some n => symbol n

def Arg.sexp : Arg → SExp
  | ident i => i.sexp
  | expr e => e.sexp

def RawAttr.sexp (a : RawAttr) : SExp :=
  form "attr" (symbol a.qualifiedName :: a.args.map fun arg => (arg.map Arg.sexp).getD nil)

def LoopHint.sexp (h : LoopHint) : SExp :=
  form "loop-hint"
    [symbol h.option.text, if h.isNumeric then .int h.value else symbol h.valueText]

def Attr.sexp : Attr → SExp
  | fallthrough _ => form "fallthrough" []
  | hint h => h.sexp

def VarDecl.sexp (d : VarDecl) : SExp :=
  form "decl" [.string d.typeName, symbol d.name, Expr.optSexp d.init]

namespace Stmt

mutual

def sexp : Stmt → SExp
  | null _ => form "null" []
  | compound body _ => form "compound" (sexps body)
  | expr e _ => form "expr" [e.sexp]
  | decl d => d.sexp
  | ret value _ => form "return" [Expr.optSexp value]
  | brk _ => form "break" []
  | cont _ => form "continue" []
  | ifElse c yes none _ => form "if" [c.sexp, yes.sexp, nil]
  | ifElse c yes (some no) _ => form "if" [c.sexp, yes.sexp, no.sexp]
  | switch c body _ => form "switch" [c.sexp, body.sexp]
  | caseLabel value sub _ => form "case" [value.sexp, sub.sexp]
  | defaultLabel sub _ => form "default" [sub.sexp]
  | forLoop none c step body _ =>
    form "for" [nil, Expr.optSexp c, Expr.optSexp step, body.sexp]
  | forLoop (some init) c step body _ =>
    form "for" [init.sexp, Expr.optSexp c, Expr.optSexp step, body.sexp]
  | rangeFor var range body typeName _ =>
    form "range-for" [.string typeName, symbol var, range.sexp, body.sexp]
  | whileLoop c body _ => form "while" [c.sexp, body.sexp]
  | doWhile body c _ => form "do" [body.sexp, c.sexp]
  | attributed attrs sub _ _ => form "attributed" [list (attrs.map Attr.sexp), sub.sexp]
  | annotated attrs sub _ _ =>
    form "parsed-attributed" [list (attrs.map RawAttr.sexp), sub.sexp]

def sexps : List Stmt → List SExp
  | [] => []
  | s :: ss => s.sexp :: sexps ss

end

theorem sexps_eq_map (ss : List Stmt) : sexps ss = ss.map sexp := by
  induction ss with
  | nil => rfl
  | cons s ss ih => simp [sexps, ih]

end Stmt

def Function.sexp (f : Function) : SExp :=
  form "function" <| symbol f.name ::
    (if f.templateParams.isEmpty then [] else [form "template" (f.templateParams.map symbol)]) ++
    [form "params" (f.params.map symbol), f.body.sexp]

def SourceUnit.sexp (u : SourceUnit) : SExp :=
  form "translation-unit" (u.globals.map VarDecl.sexp ++ u.functions.map Function.sexp)

end AttrCheck
