import AttrCheck.SExp
import AttrCheck.Proofs.Containment

/-! What an S-expression shows of a tree. Places, parentheses, the spelling of numbers, what is
known of names and what functions return are left out, and a missing expression is like a name
spelled `nil`. A tree and what is shown of it have the same S-expression. -/

namespace AttrCheck

theorem map_map_of_forall {α β : Type} {f : α → α} {g : α → β} {xs : List α}
    (h : ∀ x ∈ xs, g (f x) = g x) : (xs.map f).map g = xs.map g := by
  rw [List.map_map]
  exact List.map_congr_left h

namespace Expr

mutual

def core : Expr → Expr
  | int value _ _ => .int value "" .unknown
  | string value _ => .string value .unknown
  | name n _ _ => .name n .runtime .unknown
  | paren inner _ => inner.core
  | unary op operand _ => .unary op operand.core .unknown
  | binary op lhs rhs _ => .binary op lhs.core rhs.core .unknown
  | conditional c yes no _ => .conditional c.core yes.core no.core .unknown
  | call callee args _ => .call callee.core (coreAll args) .unknown
  | assign op target value _ => .assign op target.core value.core .unknown

def coreAll : List Expr → List Expr
  | [] => []
  | e :: es => e.core :: coreAll es

end

theorem coreAll_eq_map (es : List Expr) : coreAll es = es.map core := by
  induction es with
  | nil => rfl
  | cons e es ih => rw [coreAll, ih, List.map_cons]

def optCore : Option Expr → Option Expr
  | none => some (.name "nil" .runtime .unknown)
  | some e => some e.core

theorem sexp_core (e : Expr) : e.core.sexp = e.sexp := by
  induction e using partsInduction with
  | h e ih =>
    cases e with
    | int | string | name => rfl
    | call callee args l =>
      obtain ⟨hcallee, hargs⟩ := List.forall_mem_cons.mp ih
      rw [core, sexp, sexp, hcallee, coreAll_eq_map, sexps_eq_map, sexps_eq_map,
        map_map_of_forall hargs]
    | paren inner l =>
      rw [core, sexp]
      exact ih inner (.head _)
    | unary op operand l => rw [core, sexp, sexp, ih operand (.head _)]
    | binary op lhs rhs l | assign op lhs rhs l =>
      rw [core, sexp, sexp, ih lhs (.head _), ih rhs (.tail _ (.head _))]
    | conditional c yes no l =>
      rw [core, sexp, sexp, ih c (.head _), ih yes (.tail _ (.head _)),
        ih no (.tail _ (.tail _ (.head _)))]

theorem optSexp_optCore (o : Option Expr) : optSexp (optCore o) = optSexp o := by
  cases o with
  | none => rfl
  | some e => exact e.sexp_core

end Expr

def Arg.core : Arg → Arg
  | ident i => .ident { i with loc := .unknown }
  | expr e => .expr e.core

def RawAttr.core (a : RawAttr) : RawAttr :=
  { a with args := a.args.map (·.map Arg.core), range := .unknown }

def Attr.core : Attr → Attr
  | fallthrough _ => .fallthrough .unknown
  | hint h => .hint { h with range := .unknown }

def VarDecl.core (d : VarDecl) : VarDecl := { d with init := Expr.optCore d.init, loc := .unknown }

theorem Arg.sexp_core (a : Arg) : a.core.sexp = a.sexp := by
  cases a with
  | ident i => rfl
  | expr e => exact e.sexp_core

theorem RawAttr.sexp_core (a : RawAttr) : a.core.sexp = a.sexp := by
  have harg (o : Option Arg) : ((o.map Arg.core).map Arg.sexp).getD SExp.nil =
      (o.map Arg.sexp).getD SExp.nil := by
    cases o with
    | none => rfl
    | some a => exact a.sexp_core
  simp only [sexp, core, qualifiedName, List.map_map, Function.comp_def, harg]

theorem Attr.sexp_core (a : Attr) : a.core.sexp = a.sexp := by
  cases a <;> rfl

theorem VarDecl.sexp_core (d : VarDecl) : d.core.sexp = d.sexp := by
  unfold sexp core
  rw [Expr.optSexp_optCore]

namespace Stmt

mutual

def core : Stmt → Stmt
  | null _ => .null .unknown
  | compound body _ => .compound (coreAll body) .unknown
  | expr e _ => .expr e.core .unknown
  | decl d => .decl d.core
  | ret value _ => .ret (Expr.optCore value) .unknown
  | brk _ => .brk .unknown
  | cont _ => .cont .unknown
  | ifElse c yes none _ => .ifElse c.core yes.core none .unknown
  | ifElse c yes (some no) _ => .ifElse c.core yes.core (some no.core) .unknown
  | switch c body _ => .switch c.core body.core .unknown
  | caseLabel value sub _ => .caseLabel value.core sub.core .unknown
  | defaultLabel sub _ => .defaultLabel sub.core .unknown
  | forLoop none c step body _ =>
    .forLoop none (Expr.optCore c) (Expr.optCore step) body.core .unknown
  | forLoop (some init) c step body _ =>
    .forLoop (some init.core) (Expr.optCore c) (Expr.optCore step) body.core .unknown
  | rangeFor var range body typeName _ => .rangeFor var range.core body.core typeName .unknown
  | whileLoop c body _ => .whileLoop c.core body.core .unknown
  | doWhile body c _ => .doWhile body.core c.core .unknown
  | attributed attrs sub _ _ => .attributed (attrs.map Attr.core) sub.core .unknown .unknown
  | annotated attrs sub _ _ => .annotated (attrs.map RawAttr.core) sub.core .unknown .unknown

def coreAll : List Stmt → List Stmt
  | [] => []
  | s :: ss => s.core :: coreAll ss

end

theorem coreAll_eq_map (ss : List Stmt) : coreAll ss = ss.map core := by
  induction ss with
  | nil => rfl
  | cons s ss ih => rw [coreAll, ih, List.map_cons]

theorem sexp_core (s : Stmt) : s.core.sexp = s.sexp := by
  induction s using childInduction with
  | h s ih =>
    cases s with
    | null | brk | cont => rfl
    | expr e l => rw [core, sexp, sexp, e.sexp_core]
    | decl d => rw [core, sexp, sexp, d.sexp_core]
    | ret value l => rw [core, sexp, sexp, Expr.optSexp_optCore]
    | compound body l =>
      have hbody : (body.map core).map sexp = body.map sexp := map_map_of_forall ih
      rw [core, sexp, sexp, coreAll_eq_map, sexps_eq_map, sexps_eq_map, hbody]
    | ifElse c yes no l =>
      have hyes := ih yes (.head _)
      cases no with
      | none => rw [core, sexp, sexp, c.sexp_core, hyes]
      | some no => rw [core, sexp, sexp, c.sexp_core, hyes, ih no (.tail _ (.head _))]
    | forLoop init c step body l =>
      have hbody := ih body (List.mem_append_right _ (.head _))
      cases init with
      | none => rw [core, sexp, sexp, Expr.optSexp_optCore, Expr.optSexp_optCore, hbody]
      | some init =>
        rw [core, sexp, sexp, Expr.optSexp_optCore, Expr.optSexp_optCore, hbody, ih init (.head _)]
    | switch e sub l | caseLabel e sub l | rangeFor _ e sub _ l | whileLoop e sub l
    | doWhile sub e l =>
      rw [core, sexp, sexp, e.sexp_core, ih sub (.head _)]
    | defaultLabel sub l => rw [core, sexp, sexp, ih sub (.head _)]
    | attributed attrs sub range l | annotated attrs sub range l =>
      rw [core, sexp, sexp, map_map_of_forall fun a _ => a.sexp_core, ih sub (.head _)]

end Stmt

def Function.core (f : Function) : Function :=
  { f with body := f.body.core, returnType := "", loc := .unknown }

def SourceUnit.core (u : SourceUnit) : SourceUnit :=
  ⟨u.functions.map Function.core, u.globals.map VarDecl.core, ""⟩

theorem Function.sexp_core (f : Function) : f.core.sexp = f.sexp := by
  unfold sexp core
  rw [f.body.sexp_core]

theorem SourceUnit.sexp_core (u : SourceUnit) : u.core.sexp = u.sexp := by
  simp only [sexp, core, List.map_map, Function.comp_def, VarDecl.sexp_core,
    AttrCheck.Function.sexp_core]

end AttrCheck
