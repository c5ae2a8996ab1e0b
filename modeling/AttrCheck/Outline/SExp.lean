import AttrCheck.Outline
import AttrCheck.SExp

/-!
The S-expression of an outline, well formed or not. It fails at the first part that has none, and
says of which class that part is.
-/

namespace AttrCheck

namespace Outline

def typeName : Outline → String
  | absent => "NoneType"
  | text _ => "str"
  | int _ => "int"
  | flag _ => "bool"
  | unaryOp _ => "UnaryOpKind"
  | binaryOp _ => "BinaryOpKind"
  | option _ => "LoopHintOption"
  | attrKind _ => "AttributeKind"
  | spelling _ => "AttributeSyntax"
  | loc _ => "SourceLoc"
  | range _ => "SourceRange"
  | seq _ => "tuple"
  | record c _ => c.className

inductive NoSExp where
  /-- Nothing of the class has one. -/
  | foreign (typeName : String)
  /-- A field holds nothing of the kind that belongs there. -/
  | illFormed (c : NodeClass)
deriving DecidableEq

def NoSExp.message : NoSExp → String
  | foreign typeName => s!"cannot convert {typeName} to an S-expression"
  | illFormed c => s!"ill-formed {c.className}"

def symbols : List Outline → List SExp
  | [] => []
  | text s :: rest => .symbol s :: symbols rest
  | _ :: rest => symbols rest

open SExp (form symbol nil)

def ifPresent (o : Outline) (e : Except NoSExp SExp) : Except NoSExp SExp :=
  match o with
  | absent => .ok nil
  | _ => e

mutual

def sexp : Outline → Except NoSExp SExp
  | record .int [int value, _, _] => .ok (.int value)
  | record .string [text value, _] => .ok (.string value)
  | record .name [text n, _, _, _] => .ok (symbol n)
  | record .paren [inner, _] => inner.sexp
  | record .unary [unaryOp op, operand, _] => do return form op.sexpHead [← operand.sexp]
  | record .binary [binaryOp op, lhs, rhs, _] => do
    return form op.symbol [← lhs.sexp, ← rhs.sexp]
  | record .conditional [c, yes, no, _] => do
    return form "?:" [← c.sexp, ← yes.sexp, ← no.sexp]
  | record .call [callee, seq args, _] => do
    return form "call" ((← callee.sexp) :: (← sexps args))
  | record .assign [text op, target, value, _] => do
    return form op [← target.sexp, ← value.sexp]
  | record (.stmt .null) _ => .ok (form "null" [])
  | record (.stmt .brk) _ => .ok (form "break" [])
  | record (.stmt .cont) _ => .ok (form "continue" [])
  | record (.stmt .compound) [seq body, _] => do return form "compound" (← sexps body)
  | record (.stmt .expr) [e, _] => do return form "expr" [← e.sexp]
  | record (.stmt .decl) [text name, text typeName, init, _, _] => do
    return form "decl" [.string typeName, symbol name, ← ifPresent init init.sexp]
  | record (.stmt .ret) [value, _] => do return form "return" [← ifPresent value value.sexp]
  | record (.stmt .ifElse) [c, yes, no, _] => do
    return form "if" [← c.sexp, ← yes.sexp, ← ifPresent no no.sexp]
  | record (.stmt .switch) [c, body, _] => do
    return form "switch" [← c.sexp, ← body.sexp]
  | record (.stmt .caseLabel) [value, sub, _] => do
    return form "case" [← value.sexp, ← sub.sexp]
  | record (.stmt .defaultLabel) [sub, _] => do return form "default" [← sub.sexp]
  | record (.stmt .forLoop) [init, c, step, body, _] => do
    let head := [← ifPresent init init.sexp, ← ifPresent c c.sexp, ← ifPresent step step.sexp]
    return form "for" (head ++ [← body.sexp])
  | record (.stmt .rangeFor) [text var, whole, body, text typeName, _] => do
    return form "range-for" [.string typeName, symbol var, ← whole.sexp, ← body.sexp]
  | record (.stmt .whileLoop) [c, body, _] => do
    return form "while" [← c.sexp, ← body.sexp]
  | record (.stmt .doWhile) [body, c, _] => do
    return form "do" [← body.sexp, ← c.sexp]
  | record (.stmt .attributed) [seq attrs, sub, _, _] => do
    return form "attributed" [.list (← sexps attrs), ← sub.sexp]
  | record (.stmt .annotated) [seq attrs, sub, _, _] => do
    return form "parsed-attributed" [.list (← sexps attrs), ← sub.sexp]
  | record .function [text name, body, seq params, seq templateParams, _, _] => do
    let head := if templateParams.isEmpty then [] else [form "template" (symbols templateParams)]
    return form "function"
      (symbol name :: head ++ [form "params" (symbols params), ← body.sexp])
  | record .unit [seq functions, seq globals, _] => do
    return form "translation-unit" ((← sexps globals) ++ (← sexps functions))
  | record .ident [_, text name] => .ok (symbol name)
  | record .ident _ => .ok nil
  | record .rawAttr [text name, _, _, _, seq args, scope] => do
    let scope := match scope with
      | text s => some s
      | _ => none
    return form "attr" (symbol (qualify scope name) :: (← optSExps args))
  | record .fallthrough _ => .ok (form "fallthrough" [])
  | record .hint [option o, int value, range r] => .ok (LoopHint.sexp ⟨o, value, r⟩)
  | record c _ => .error (.illFormed c)
  | o => .error (.foreign o.typeName)

def sexps : List Outline → Except NoSExp (List SExp)
  | [] => .ok []
  | o :: os => do return (← o.sexp) :: (← sexps os)

def optSExps : List Outline → Except NoSExp (List SExp)
  | [] => .ok []
  | o :: os => do return (← ifPresent o o.sexp) :: (← optSExps os)

end

end Outline

end AttrCheck
