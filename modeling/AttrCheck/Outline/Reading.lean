import AttrCheck.Outline

/-!
Reading outlines back. An expression is read from any outline: what is no expression counts as
something without a constant value. Attributes are read from well-formed outlines only, and of a
statement its kind and its place.
-/

namespace AttrCheck

namespace Outline

def optText? : Outline → Option (Option String)
  | absent => some none
  | text s => some (some s)
  | _ => none

def texts : List Outline → List String
  | [] => []
  | text s :: rest => s :: texts rest
  | _ :: rest => texts rest

def foreignExpr : Expr := .string "" Loc.unknown

mutual

def expr : Outline → Expr
  | record .int [int value, text s, loc l] => .int value s l
  | record .string [text value, loc l] => .string value l
  | record .name [text n, constant, flag isParam, loc l] =>
    let constant := match constant with
      | int value => some value
      | _ => none
    .name n ⟨constant, isParam⟩ l
  | record .paren [inner, loc l] => .paren inner.expr l
  | record .unary [unaryOp op, operand, loc l] => .unary op operand.expr l
  | record .binary [binaryOp op, lhs, rhs, loc l] => .binary op lhs.expr rhs.expr l
  | record .conditional [c, yes, no, loc l] => .conditional c.expr yes.expr no.expr l
  | record .call [callee, seq args, loc l] => .call callee.expr (exprs args) l
  | record .assign [text op, target, value, loc l] => .assign op target.expr value.expr l
  | _ => foreignExpr

def exprs : List Outline → List Expr
  | [] => []
  | o :: os => o.expr :: exprs os

end

def isExpr : Outline → Bool
  | record c _ =>
    match c with
    | .int | .string | .name | .paren | .unary | .binary | .conditional | .call | .assign => true
    | _ => false
  | _ => false

def optExpr (o : Outline) : Option Expr := if o.isExpr then some o.expr else none

def arg? (o : Outline) : Option Arg :=
  match o with
  | record .ident [loc l, name] => name.optText?.map fun name => .ident ⟨l, name⟩
  | _ => o.optExpr.map .expr

def rawAttr? : Outline → Option RawAttr
  | record .rawAttr [text name, _, spelling s, range r, seq args, scope] =>
    scope.optText?.map fun scope => ⟨name, s, scope, args.map arg?, r⟩
  | _ => none

def attr? : Outline → Option Attr
  | record .fallthrough [range r] => some (.fallthrough r)
  | record .hint [option o, int value, range r] => some (.hint ⟨o, value, r⟩)
  | _ => none

def stmtKind? : Outline → Option StmtKind
  | record (.stmt kind) _ => some kind
  | _ => none

def loc? : Outline → Option Loc
  | loc l => some l
  | _ => none

def place? : Outline → Option Loc
  | record .rawAttr [_, _, _, range r, _, _] => some r.start
  | record _ values => values.findSome? loc?
  | _ => none

end Outline

end AttrCheck
