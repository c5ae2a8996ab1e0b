import AttrCheck.Expr.Constant
import AttrCheck.Stmt

/-!
Scopes of names. A name means what the innermost scope that declares it last said of it. Binding an
expression writes what its names mean into them.
-/

namespace AttrCheck

abbrev Scope := List (String × Binding)

abbrev Scopes := List Scope

namespace Scopes

def find? (scopes : Scopes) (name : String) : Option Binding :=
  scopes.findSome? fun scope => scope.lookup name

def declare (scopes : Scopes) (name : String) (b : Binding) : Scopes :=
  match scopes with
  | [] => [[(name, b)]]
  | scope :: outer => ((name, b) :: scope) :: outer

end Scopes

namespace Expr

mutual

def bound (scopes : Scopes) : Expr → Expr
  | int value text l => int value text l
  | string value l => string value l
  | name n b l => name n ((scopes.find? n).getD b) l
  | paren inner l => paren (inner.bound scopes) l
  | unary op operand l => unary op (operand.bound scopes) l
  | binary op lhs rhs l => binary op (lhs.bound scopes) (rhs.bound scopes) l
  | conditional c yes no l =>
    conditional (c.bound scopes) (yes.bound scopes) (no.bound scopes) l
  | call callee args l => call (callee.bound scopes) (boundAll scopes args) l
  | assign op target value l => assign op (target.bound scopes) (value.bound scopes) l

def boundAll (scopes : Scopes) : List Expr → List Expr
  | [] => []
  | e :: es => e.bound scopes :: boundAll scopes es

end

theorem boundAll_eq_map (scopes : Scopes) (es : List Expr) :
    boundAll scopes es = es.map (bound scopes) := by
  induction es with
  | nil => rfl
  | cons e es ih => simp [boundAll, ih]

end Expr

def Arg.bound (scopes : Scopes) : Arg → Arg
  | ident i => ident i
  | expr e => expr (e.bound scopes)

def RawAttr.bound (scopes : Scopes) (a : RawAttr) : RawAttr :=
  { a with args := a.args.map (Option.map (Arg.bound scopes)) }

/-- What a declaration makes known of its name: its value, if it is `const` and has one. -/
def VarDecl.binding (scopes : Scopes) (d : VarDecl) : Binding :=
  .ofConstant (if d.isConst then d.init.bind fun e => (e.bound scopes).constant? else none)

def Scopes.declareVar (scopes : Scopes) (d : VarDecl) : Scopes :=
  scopes.declare d.name (d.binding scopes)

def Function.scope (f : Function) : Scope :=
  f.params.map (·, .runtime) ++ f.templateParams.map (·, .templateParam)

end AttrCheck
