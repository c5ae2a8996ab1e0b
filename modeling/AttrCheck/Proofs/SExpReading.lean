import AttrCheck.Proofs.AttributedShape
import AttrCheck.Proofs.NodePlaces
import AttrCheck.Proofs.SExpCore

/-! S-expressions read back. Forms that share a head differ in how many items they have or in where
they stand, so what an S-expression shows of a checked tree can be told from it. -/

namespace AttrCheck

/-- Whether a node can be told from its S-expression. Its attributes, if any, are checked ones. -/
def Node.IsLegible : Node → Prop
  | stmt (.attributed attrs _ _ _) => ∀ h : LoopHint, .hint h ∈ attrs → h.InRange
  | stmt (.annotated _ _ _ _) => False
  | a => a.AsWritten

def UnaryOp.ofSexpHead? (s : String) : Option UnaryOp := all.find? (·.sexpHead = s)

namespace StmtKind

def sexpHead : StmtKind → String
  | null => "null"
  | compound => "compound"
  | expr => "expr"
  | decl => "decl"
  | ret => "return"
  | brk => "break"
  | cont => "continue"
  | ifElse => "if"
  | switch => "switch"
  | caseLabel => "case"
  | defaultLabel => "default"
  | forLoop => "for"
  | rangeFor => "range-for"
  | whileLoop => "while"
  | doWhile => "do"
  | attributed => "attributed"
  | annotated => "parsed-attributed"

def ofSexpHead? (s : String) : Option StmtKind := all.find? (·.sexpHead = s)

end StmtKind

namespace Expr

def ofForm? (head : String) (items : List Expr) : Option Expr :=
  if head = "call" then
    match items with
    | callee :: args => some (call callee args .unknown)
    | [] => none
  else
    match items with
    | [e] => (UnaryOp.ofSexpHead? head).map fun op => unary op e .unknown
    | [e, e'] =>
      -- No symbol of an assignment is that of a binary operator, so the order does not matter.
      if head ∈ assignSymbols then some (assign head e e' .unknown)
      else (BinaryOp.ofSymbol? head).map fun op => binary op e e' .unknown
    | [c, e, e'] => some (conditional c e e' .unknown)
    | _ => none

theorem ofForm?_unary (op : UnaryOp) (e : Expr) :
    ofForm? op.sexpHead [e] = some (unary op e .unknown) := by
  cases op <;> rfl

theorem ofForm?_binary (op : BinaryOp) (e e' : Expr) :
    ofForm? op.symbol [e, e'] = some (binary op e e' .unknown) := by
  cases op <;> rfl

theorem ofForm?_assign {op : String} (h : op ∈ assignSymbols) (e e' : Expr) :
    ofForm? op [e, e'] = some (assign op e e' .unknown) := by
  have hcall : ∀ op ∈ assignSymbols, op ≠ "call" := by decide
  rw [ofForm?, if_neg (hcall op h)]
  exact if_pos h

end Expr

namespace SExp

def symbol? : SExp → Option String
  | symbol s => some s
  | _ => none

mutual

def expr? : SExp → Option Expr
  | int n => some (.int n "" .unknown)
  | string s => some (.string s .unknown)
  | symbol s => some (.name s .runtime .unknown)
  | list (symbol head :: items) => (exprs? items).bind (Expr.ofForm? head)
  | list _ => none

def exprs? : List SExp → Option (List Expr)
  | [] => some []
  | e :: es => do return (← e.expr?) :: (← exprs? es)

end

def var? : List SExp → Option VarDecl
  | [string type, symbol name, init] =>
    some ⟨name, type, init.expr?, "const ".toList.isPrefixOf type.toList, .unknown⟩
  | _ => none

def attr? : SExp → Option Attr
  | list [symbol _] => some (.fallthrough .unknown)
  | list [symbol _, symbol option, int n] => do
    return .hint ⟨← HintOption.ofText? option, n, .unknown⟩
  | list [symbol _, symbol option, symbol word] => do
    return .hint ⟨← HintOption.ofText? option, if word = switchText false then 0 else 1, .unknown⟩
  | _ => none

mutual

def stmt? : SExp → Option Stmt
  | list (symbol head :: items) =>
    match StmtKind.ofSexpHead? head, items with
    | some .null, [] => some (.null .unknown)
    | some .compound, body => do return .compound (← stmts? body) .unknown
    | some .expr, [e] => do return .expr (← e.expr?) .unknown
    | some .decl, items => do return .decl (← var? items)
    | some .ret, [value] => some (.ret value.expr? .unknown)
    | some .brk, [] => some (.brk .unknown)
    | some .cont, [] => some (.cont .unknown)
    -- A branch or a part of a loop head that reads as none is missing.
    | some .ifElse, [c, yes, no] => do
      return .ifElse (← c.expr?) (← yes.stmt?) no.stmt? .unknown
    | some .switch, [c, body] => do return .switch (← c.expr?) (← body.stmt?) .unknown
    | some .caseLabel, [value, sub] => do return .caseLabel (← value.expr?) (← sub.stmt?) .unknown
    | some .defaultLabel, [sub] => do return .defaultLabel (← sub.stmt?) .unknown
    | some .forLoop, [init, c, step, body] => do
      return .forLoop init.stmt? c.expr? step.expr? (← body.stmt?) .unknown
    | some .rangeFor, [string type, symbol var, range, body] => do
      return .rangeFor var (← range.expr?) (← body.stmt?) type .unknown
    | some .whileLoop, [c, body] => do return .whileLoop (← c.expr?) (← body.stmt?) .unknown
    | some .doWhile, [body, c] => do return .doWhile (← body.stmt?) (← c.expr?) .unknown
    | some .attributed, [list attrs, sub] => do
      return .attributed (← attrs.mapM attr?) (← sub.stmt?) .unknown .unknown
    | _, _ => none
  | _ => none

def stmts? : List SExp → Option (List Stmt)
  | [] => some []
  | s :: ss => do return (← s.stmt?) :: (← stmts? ss)

end

def function? : List SExp → Option Function
  | [symbol name, list (_ :: params), body] => do
    return ⟨name, ← body.stmt?, ← params.mapM symbol?, [], "", .unknown⟩
  | [symbol name, list (_ :: templateParams), list (_ :: params), body] => do
    return ⟨name, ← body.stmt?, ← params.mapM symbol?, ← templateParams.mapM symbol?, "", .unknown⟩
  | _ => none

def item? : SExp → Option TopLevel
  | list (symbol head :: items) =>
    if head = StmtKind.sexpHead .decl then (var? items).map .global
    else (function? items).map .function
  | _ => none

def unit? : SExp → Option SourceUnit
  | list (_ :: items) => do return .ofItems "" (← items.mapM item?)
  | _ => none

section Lists

variable {α β : Type} {f : α → SExp} {g : SExp → Option β} {k : α → β} {as : List α}

theorem mapM_map (h : ∀ a ∈ as, g (f a) = some (k a)) : (as.map f).mapM g = some (as.map k) := by
  induction as with
  | nil => rfl
  | cons a as ih =>
    obtain ⟨ha, has⟩ := List.forall_mem_cons.mp h
    rw [List.map_cons, List.mapM_cons, ha, ih has]
    rfl

theorem mapM_symbol? (ss : List String) : (ss.map symbol).mapM symbol? = some ss := by
  have hread : (ss.map symbol).mapM symbol? = some (ss.map id) := mapM_map fun _ _ => rfl
  rwa [List.map_id] at hread

end Lists

theorem exprs?_eq_mapM (es : List SExp) : exprs? es = es.mapM expr? := by
  induction es with
  | nil => rfl
  | cons e es ih => rw [exprs?, ih, List.mapM_cons]

theorem stmts?_eq_mapM (ss : List SExp) : stmts? ss = ss.mapM stmt? := by
  induction ss with
  | nil => rfl
  | cons s ss ih => rw [stmts?, ih, List.mapM_cons]

theorem expr?_form (head : String) {es : List Expr}
    (h : ∀ e ∈ es, e.sexp.expr? = some e.core) :
    (form head (es.map Expr.sexp)).expr? = Expr.ofForm? head (es.map Expr.core) := by
  rw [form, expr?, exprs?_eq_mapM, mapM_map h]
  rfl

theorem expr?_sexp {e : Expr} (h : (Node.expr e).Throughout Node.IsLegible) :
    e.sexp.expr? = some e.core := by
  induction e using Expr.partsInduction with
  | h e ih =>
    obtain ⟨hself, hparts⟩ := h
    have hread : ∀ e' ∈ e.parts, e'.sexp.expr? = some e'.core :=
      fun e' he' => ih e' he' (hparts _ (List.mem_map_of_mem he'))
    cases e with
    | int | string | name => rfl
    | paren inner l =>
      rw [Expr.sexp, Expr.core]
      exact hread inner (.head _)
    | unary op operand l => exact (expr?_form op.sexpHead hread).trans (Expr.ofForm?_unary op _)
    | binary op lhs rhs l => exact (expr?_form op.symbol hread).trans (Expr.ofForm?_binary op _ _)
    | assign op lhs rhs l => exact (expr?_form op hread).trans (Expr.ofForm?_assign hself _ _)
    | conditional c yes no l => exact expr?_form "?:" hread
    | call callee args l =>
      rw [Expr.sexp, Expr.sexps_eq_map, Expr.core, Expr.coreAll_eq_map]
      exact expr?_form "call" hread

theorem expr?_optSexp {o : Option Expr}
    (h : ∀ e ∈ o, (Node.expr e).Throughout Node.IsLegible) :
    (Expr.optSexp o).expr? = Expr.optCore o := by
  cases o with
  | none => rfl
  | some e => exact expr?_sexp (h e rfl)

theorem var?_sexp {d : VarDecl} (h : (Node.var d).Throughout Node.IsLegible) :
    var? [string d.typeName, symbol d.name, Expr.optSexp d.init] = some d.core := by
  obtain ⟨hflag, hparts⟩ := h
  have hinit : (Expr.optSexp d.init).expr? = Expr.optCore d.init :=
    expr?_optSexp fun e he => hparts _ (List.mem_map_of_mem (Option.mem_toList.mpr he))
  have hconst : "const ".toList.isPrefixOf d.typeName.toList = d.isConst := by
    rw [Bool.eq_iff_iff, List.isPrefixOf_iff_prefix]
    exact Iff.symm hflag
  rw [var?, hinit, hconst]
  rfl

theorem attr?_sexp {a : Attr} (h : ∀ hint : LoopHint, a = .hint hint → hint.InRange) :
    a.sexp.attr? = some a.core := by
  cases a with
  | fallthrough r => rfl
  | hint hint =>
    have hrange := h hint rfl
    obtain ⟨option, value, range⟩ := hint
    -- The value of a switch is shown as a word, which two values only can be told from.
    cases option with
    | vectorize | interleave | unroll => rcases hrange with rfl | rfl <;> rfl
    | vectorizeWidth | interleaveCount | unrollCount => rfl

theorem stmt?_sexp {s : Stmt} (h : (Node.stmt s).Throughout Node.IsLegible) :
    s.sexp.stmt? = some s.core := by
  induction s using Stmt.childInduction with
  | h s ih =>
    obtain ⟨hself, hparts⟩ := h
    have hread : ∀ t ∈ s.children, t.sexp.stmt? = some t.core :=
      fun t ht => ih t ht (hparts _ (Stmt.mem_parts_iff.mpr ht))
    have hexpr {e : Expr} (he : .expr e ∈ s.parts) : e.sexp.expr? = some e.core :=
      expr?_sexp (hparts _ he)
    have hopt {o : Option Expr} (ho : o.toList.map .expr ⊆ s.parts) :
        (Expr.optSexp o).expr? = Expr.optCore o :=
      expr?_optSexp fun e he => hparts _ (ho (List.mem_map_of_mem (Option.mem_toList.mpr he)))
    cases s with
    | null | brk | cont => rfl
    -- In each case, the items are read in their order, and then the statement is put together.
    | compound body l =>
      have hbody : (body.map Stmt.sexp).mapM stmt? = some (body.map Stmt.core) := mapM_map hread
      rw [Stmt.sexp, Stmt.sexps_eq_map, Stmt.core, Stmt.coreAll_eq_map]
      show (stmts? (body.map Stmt.sexp) >>= _) = _
      rw [stmts?_eq_mapM, hbody]
      rfl
    | expr e l =>
      show (e.sexp.expr? >>= _) = _
      rw [hexpr (.head _)]
      rfl
    | decl d =>
      show (var? _ >>= _) = _
      rw [var?_sexp (hparts _ (.head _))]
      rfl
    | ret value l =>
      show some (Stmt.ret (Expr.optSexp value).expr? .unknown) = _
      rw [hopt (List.Subset.refl _)]
      rfl
    | ifElse c yes no l =>
      have hc := hexpr (.head _)
      have hyes := hread yes (.head _)
      cases no with
      | none =>
        show (c.sexp.expr? >>= fun c => yes.sexp.stmt? >>= _) = _
        rw [hc, hyes]
        rfl
      | some no =>
        show (c.sexp.expr? >>= fun c => yes.sexp.stmt? >>= fun yes =>
          some (Stmt.ifElse c yes no.sexp.stmt? .unknown)) = _
        rw [hc, hyes, hread no (.tail _ (.head _))]
        rfl
    | switch e sub l | caseLabel e sub l | whileLoop e sub l | rangeFor _ e sub _ l =>
      show (e.sexp.expr? >>= fun e => sub.sexp.stmt? >>= _) = _
      rw [hexpr (.head _), hread sub (.head _)]
      rfl
    | defaultLabel sub l =>
      show (sub.sexp.stmt? >>= _) = _
      rw [hread sub (.head _)]
      rfl
    | doWhile sub e l =>
      show (sub.sexp.stmt? >>= fun s => e.sexp.expr? >>= _) = _
      rw [hread sub (.head _), hexpr (.tail _ (.head _))]
      rfl
    | forLoop init c step body l =>
      have hc := hopt (o := c) fun _ h => by simp [Stmt.parts, h]
      have hstep := hopt (o := step) fun _ h => by simp [Stmt.parts, h]
      have hbody := hread body (List.mem_append_right _ (.head _))
      cases init with
      | none =>
        show (body.sexp.stmt? >>= fun body => some (Stmt.forLoop none (Expr.optSexp c).expr?
          (Expr.optSexp step).expr? body .unknown)) = _
        rw [hc, hstep, hbody]
        rfl
      | some init =>
        show (body.sexp.stmt? >>= fun body => some (Stmt.forLoop init.sexp.stmt?
          (Expr.optSexp c).expr? (Expr.optSexp step).expr? body .unknown)) = _
        rw [hc, hstep, hbody, hread init (.head _)]
        rfl
    | attributed attrs sub range l =>
      have hattrs : (attrs.map Attr.sexp).mapM attr? = some (attrs.map Attr.core) :=
        mapM_map fun a ha => attr?_sexp fun hint he => hself hint (he ▸ ha)
      show ((attrs.map Attr.sexp).mapM attr? >>= fun attrs => sub.sexp.stmt? >>= _) = _
      rw [hattrs, hread sub (.head _)]
      rfl
    | annotated => exact hself.elim

theorem item?_global {d : VarDecl} (h : (Node.var d).Throughout Node.IsLegible) :
    d.sexp.item? = some (.global d.core) := by
  rw [VarDecl.sexp, form, item?, if_pos (by rfl), var?_sexp h]
  rfl

theorem item?_function {f : Function} (h : (Node.function f).Throughout Node.IsLegible) :
    f.sexp.item? = some (.function f.core) := by
  obtain ⟨_, hparts⟩ := h
  have hbody := stmt?_sexp (hparts _ (.head _))
  obtain ⟨name, body, params, templateParams, returnType, l⟩ := f
  show (function? _).map TopLevel.function = _
  -- Without template parameters, there is one item less.
  cases templateParams with
  | nil =>
    show ((body.sexp.stmt? >>= fun body => (params.map symbol).mapM symbol? >>= _).map _) = _
    rw [hbody, mapM_symbol?]
    rfl
  | cons p ps =>
    show ((body.sexp.stmt? >>= fun body => (params.map symbol).mapM symbol? >>= fun params =>
      ((p :: ps).map symbol).mapM symbol? >>= _).map _) = _
    rw [hbody, mapM_symbol?, mapM_symbol?]
    rfl

theorem unit?_sexp {u : SourceUnit} (h : ∀ a ∈ u.roots, a.Throughout Node.IsLegible) :
    u.sexp.unit? = some u.core := by
  have hglobals : (u.globals.map VarDecl.sexp).mapM item? =
      some (u.globals.map fun d => TopLevel.global d.core) :=
    mapM_map fun d hd => item?_global (h _ (List.mem_append_right _ (List.mem_map_of_mem hd)))
  have hfunctions : (u.functions.map Function.sexp).mapM item? =
      some (u.functions.map fun f => TopLevel.function f.core) :=
    mapM_map fun f hf => item?_function (h _ (List.mem_append_left _ (List.mem_map_of_mem hf)))
  show ((u.globals.map VarDecl.sexp ++ u.functions.map Function.sexp).mapM item? >>= _) = _
  rw [List.mapM_append, hglobals, hfunctions]
  show some (SourceUnit.ofItems "" _) = _
  simp [SourceUnit.ofItems, SourceUnit.core, List.filterMap_map, Function.comp_def,
    TopLevel.function?, TopLevel.global?]

end SExp

end AttrCheck
