import AttrCheck.Outline

/-!
The outlines of expressions, attributes, statements and units.
-/

namespace AttrCheck

def Outline.ofOptText : Option String → Outline
  | none => .absent
  | some s => .text s

def Outline.ofOptInt : Option Int → Outline
  | none => .absent
  | some n => .int n

def Outline.ofTexts (ss : List String) : Outline := .seq (ss.map .text)

namespace Expr

mutual

def outline : Expr → Outline
  | int value text l => .record .int [.int value, .text text, .loc l]
  | string value l => .record .string [.text value, .loc l]
  | name n b l =>
    .record .name [.text n, .ofOptInt b.constant, .flag b.isTemplateParam, .loc l]
  | paren inner l => .record .paren [inner.outline, .loc l]
  | unary op operand l => .record .unary [.unaryOp op, operand.outline, .loc l]
  | binary op lhs rhs l => .record .binary [.binaryOp op, lhs.outline, rhs.outline, .loc l]
  | conditional c yes no l =>
    .record .conditional [c.outline, yes.outline, no.outline, .loc l]
  | call callee args l => .record .call [callee.outline, .seq (outlines args), .loc l]
  | assign op target value l =>
    .record .assign [.text op, target.outline, value.outline, .loc l]

def outlines : List Expr → List Outline
  | [] => []
  | e :: es => e.outline :: outlines es

end

def optOutline : Option Expr → Outline
  | none => .absent
  | some e => e.outline

end Expr

def Ident.outline (i : Ident) : Outline := .record .ident [.loc i.loc, .ofOptText i.name]

def Arg.outline : Arg → Outline
  | ident i => i.outline
  | expr e => e.outline

def Outline.rawAttr (name : String) (spelling : Spelling) (scope : Option String)
    (args : List Outline) (range : Range) : Outline :=
  .record .rawAttr
    [.text name, .attrKind (AttrKind.find spelling scope name), .spelling spelling, .range range,
      .seq args, .ofOptText scope]

def RawAttr.outline (a : RawAttr) : Outline :=
  Outline.rawAttr a.name a.spelling a.scope
    (a.args.map fun arg => (arg.map Arg.outline).getD .absent) a.range

def Attr.outline : Attr → Outline
  | fallthrough r => .record .fallthrough [.range r]
  | hint h => .record .hint [.option h.option, .int h.value, .range h.range]

def VarDecl.outline (d : VarDecl) : Outline :=
  .record (.stmt .decl)
    [.text d.name, .text d.typeName, Expr.optOutline d.init, .flag d.isConst, .loc d.loc]

namespace Stmt

mutual

def outline : Stmt → Outline
  | null l => .record (.stmt .null) [.loc l]
  | compound body l => .record (.stmt .compound) [.seq (outlines body), .loc l]
  | expr e l => .record (.stmt .expr) [e.outline, .loc l]
  | decl d => d.outline
  | ret value l => .record (.stmt .ret) [Expr.optOutline value, .loc l]
  | brk l => .record (.stmt .brk) [.loc l]
  | cont l => .record (.stmt .cont) [.loc l]
  | ifElse c yes none l =>
    .record (.stmt .ifElse) [c.outline, yes.outline, .absent, .loc l]
  | ifElse c yes (some no) l =>
    .record (.stmt .ifElse) [c.outline, yes.outline, no.outline, .loc l]
  | switch c body l => .record (.stmt .switch) [c.outline, body.outline, .loc l]
  | caseLabel value sub l =>
    .record (.stmt .caseLabel) [value.outline, sub.outline, .loc l]
  | defaultLabel sub l => .record (.stmt .defaultLabel) [sub.outline, .loc l]
  | forLoop none c step body l =>
    .record (.stmt .forLoop)
      [.absent, Expr.optOutline c, Expr.optOutline step, body.outline, .loc l]
  | forLoop (some init) c step body l =>
    .record (.stmt .forLoop)
      [init.outline, Expr.optOutline c, Expr.optOutline step, body.outline, .loc l]
  | rangeFor var range body typeName l =>
    .record (.stmt .rangeFor)
      [.text var, range.outline, body.outline, .text typeName, .loc l]
  | whileLoop c body l => .record (.stmt .whileLoop) [c.outline, body.outline, .loc l]
  | doWhile body c l => .record (.stmt .doWhile) [body.outline, c.outline, .loc l]
  | attributed attrs sub range l =>
    .record (.stmt .attributed)
      [.seq (attrs.map Attr.outline), sub.outline, .range range, .loc l]
  | annotated attrs sub range l =>
    .record (.stmt .annotated)
      [.seq (attrs.map RawAttr.outline), sub.outline, .range range, .loc l]

def outlines : List Stmt → List Outline
  | [] => []
  | s :: ss => s.outline :: outlines ss

end

end Stmt

def Function.outline (f : Function) : Outline :=
  .record .function
    [.text f.name, f.body.outline, .ofTexts f.params, .ofTexts f.templateParams,
      .text f.returnType, .loc f.loc]

def SourceUnit.outline (u : SourceUnit) : Outline :=
  .record .unit
    [.seq (u.functions.map Function.outline), .seq (u.globals.map VarDecl.outline), .text u.file]

end AttrCheck
