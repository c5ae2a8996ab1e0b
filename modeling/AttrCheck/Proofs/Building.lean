import AttrCheck.Check
import AttrCheck.Proofs.Conversion
import AttrCheck.Proofs.WalkOrder

/-! Building the tree of a text. Of all that can fail in it one thing does: a decimal literal is
longer than the host takes. Without such a literal the tree is the one that was read. -/

namespace AttrCheck

namespace Expr

mutual

def literals : Expr → List String
  | int _ text _ => [text]
  | string _ _ | name _ _ _ => []
  | paren inner _ => inner.literals
  | unary _ operand _ => operand.literals
  | binary _ lhs rhs _ => lhs.literals ++ rhs.literals
  | conditional c yes no _ => c.literals ++ (yes.literals ++ no.literals)
  | call callee args _ => callee.literals ++ allLiterals args
  | assign _ target value _ => target.literals ++ value.literals

def allLiterals : List Expr → List String
  | [] => []
  | e :: es => e.literals ++ allLiterals es

end

def optLiterals (o : Option Expr) : List String := o.toList.flatMap literals

end Expr

def Arg.literals : Arg → List String
  | ident _ => []
  | expr e => e.literals

def RawAttr.literals (a : RawAttr) : List String :=
  a.args.flatMap fun place => place.toList.flatMap Arg.literals

def VarDecl.literals (d : VarDecl) : List String := Expr.optLiterals d.init

namespace Stmt

mutual

def literals : Stmt → List String
  | null _ | brk _ | cont _ => []
  | compound body _ => allLiterals body
  | expr e _ => e.literals
  | decl d => d.literals
  | ret value _ => Expr.optLiterals value
  | ifElse c yes no _ => c.literals ++ (yes.literals ++ optLiterals no)
  | switch c body _ | whileLoop c body _ => c.literals ++ body.literals
  | caseLabel value sub _ => value.literals ++ sub.literals
  | defaultLabel sub _ | attributed _ sub _ _ => sub.literals
  | forLoop init c step body _ =>
    optLiterals init ++ (Expr.optLiterals c ++ (Expr.optLiterals step ++ body.literals))
  | rangeFor _ range body _ _ => range.literals ++ body.literals
  | doWhile body c _ => body.literals ++ c.literals
  | annotated attrs sub _ _ => attrs.flatMap RawAttr.literals ++ sub.literals

def allLiterals : List Stmt → List String
  | [] => []
  | s :: ss => s.literals ++ allLiterals ss

def optLiterals : Option Stmt → List String
  | none => []
  | some s => s.literals

end

end Stmt

def SourceUnit.literals (u : SourceUnit) : List String :=
  u.functions.flatMap (fun f => f.body.literals) ++ u.globals.flatMap VarDecl.literals

section Builds

variable {limit : DigitLimit} {α β : Type}

/-- Whether a build comes to this tree, unless one of some literals is too long. -/
def Builds (limit : DigitLimit) (literals : List String) (x : Except BuildError α) (a : α) : Prop :=
  x = limit.settle literals a

namespace Builds

variable {ss ts : List String} {x : Except BuildError α} {a : α} {b : β}
  {f : α → Except BuildError β}

theorem ok (a : α) : Builds limit [] (.ok a) a := rfl

theorem bind (hx : Builds limit ss x a) (hf : Builds limit ts (f a) b) :
    Builds limit (ss ++ ts) (x >>= f) b := by
  obtain rfl := hx
  unfold Builds DigitLimit.settle at *
  rw [List.all_append]
  cases ss.all limit.converts with
  | true => exact hf
  | false => rfl

theorem map (hx : Builds limit ss x a) (hf : f a = .ok b) : Builds limit ss (x >>= f) b := by
  have hbind := hx.bind (hf ▸ ok b)
  rwa [List.append_nil] at hbind

theorem mapM {as : List α} {f : α → Except BuildError α} {literals : α → List String}
    (h : ∀ a ∈ as, Builds limit (literals a) (f a) a) :
    Builds limit (as.flatMap literals) (as.mapM f) as := by
  induction as with
  | nil => exact ok []
  | cons a as ih =>
    obtain ⟨ha, has⟩ := List.forall_mem_cons.mp h
    rw [List.mapM_cons, List.flatMap_cons]
    exact ha.bind ((ih has).map rfl)

theorem option_mapM {o : Option α} {f : α → Except BuildError α} {literals : α → List String}
    (h : ∀ a ∈ o, Builds limit (literals a) (f a) a) :
    Builds limit (o.toList.flatMap literals) (o.mapM f) o := by
  cases o with
  | none => exact ok none
  | some a =>
    have hsome : Builds limit (literals a) (some <$> f a) (some a) := (h a rfl).map rfl
    simpa using hsome

end Builds

end Builds

section Nodes

variable (limit : DigitLimit)

theorem UnaryOp.lookUp_eq (op : UnaryOp) : op.lookUp = .ok op := by
  cases op <;> rfl

theorem BinaryOp.lookUp_eq (op : BinaryOp) : op.lookUp = .ok op := by
  rw [lookUp, op.ofSymbol?_symbol]
  rfl

open Node

theorem Expr.builds_all {es : List Expr} (h : ∀ e ∈ es, Builds limit e.literals (e.build limit) e) :
    Builds limit (allLiterals es) (buildAll limit es) es := by
  induction es with
  | nil => exact .ok []
  | cons e es ih =>
    obtain ⟨he, hes⟩ := List.forall_mem_cons.mp h
    exact he.bind ((ih hes).map rfl)

theorem Expr.builds {e : Expr} (h : (Node.expr e).Throughout AsRead) :
    Builds limit e.literals (e.build limit) e := by
  induction e using Expr.partsInduction with
  | h e ih =>
    obtain ⟨hself, hparts⟩ := h
    have hpart : ∀ e' ∈ e.parts, Builds limit e'.literals (e'.build limit) e' :=
      fun e' he' => ih e' he' (hparts _ (List.mem_map_of_mem he'))
    cases e with
    | int value text l =>
      have hliteral : IsLiteral value text := hself.asWritten
      have hvalue : Builds limit [text] (integerValue limit text) value :=
        integerValue_of_isLiteral hliteral limit
      exact hvalue.map rfl
    | string value l => exact .ok _
    | name n b l => exact .ok _
    | paren inner l => exact (hpart inner (.head _)).map rfl
    | unary op operand l => exact (hpart operand (.head _)).map (by rw [op.lookUp_eq]; rfl)
    | binary op lhs rhs l =>
      exact (hpart lhs (.head _)).bind
        ((hpart rhs (.tail _ (.head _))).map (by rw [op.lookUp_eq]; rfl))
    | conditional c yes no l =>
      exact (hpart c (.head _)).bind ((hpart yes (.tail _ (.head _))).bind
        ((hpart no (.tail _ (.tail _ (.head _)))).map rfl))
    | call callee args l =>
      exact (hpart callee (.head _)).bind
        ((builds_all limit fun e he => hpart e (.tail _ he)).map rfl)
    | assign op target value l =>
      exact (hpart target (.head _)).bind ((hpart value (.tail _ (.head _))).map rfl)

theorem Expr.builds_opt {o : Option Expr} (h : ∀ e ∈ o, (Node.expr e).Throughout AsRead) :
    Builds limit (optLiterals o) (o.mapM (Expr.build limit)) o :=
  .option_mapM fun e he => Expr.builds limit (h e he)

theorem VarDecl.builds {d : VarDecl} (h : (Node.var d).Throughout AsRead) :
    Builds limit d.literals (d.build limit) d := by
  obtain ⟨_, hparts⟩ := h
  have hinit : Builds limit d.literals (d.init.mapM (Expr.build limit)) d.init :=
    Expr.builds_opt limit fun e he => hparts _ (List.mem_map_of_mem (Option.mem_toList.mpr he))
  exact hinit.map rfl

theorem RawAttr.builds {a : RawAttr} (h : (Node.attr a).Throughout AsRead) :
    Builds limit a.literals (a.build limit) a := by
  obtain ⟨_, hparts⟩ := h
  have harg {arg : Arg} (harg : some arg ∈ a.args) :
      Builds limit arg.literals (arg.build limit) arg := by
    have hnode : arg.node.Throughout AsRead :=
      hparts _ (List.mem_filterMap.mpr ⟨some arg, harg, rfl⟩)
    cases arg with
    | ident i => exact .ok _
    | expr e => exact (Expr.builds limit hnode).map rfl
  have hargs : Builds limit a.literals
      (a.args.mapM fun place => place.mapM (Arg.build limit)) a.args := by
    refine .mapM fun place hplace => .option_mapM fun arg hsome => harg ?_
    rwa [← Option.mem_def.mp hsome]
  exact hargs.map rfl

theorem Stmt.builds_all {ss : List Stmt}
    (h : ∀ s ∈ ss, Builds limit s.literals (s.build limit) s) :
    Builds limit (allLiterals ss) (buildAll limit ss) ss := by
  induction ss with
  | nil => exact .ok []
  | cons s ss ih =>
    obtain ⟨hs, hss⟩ := List.forall_mem_cons.mp h
    exact hs.bind ((ih hss).map rfl)

theorem Stmt.builds_opt {o : Option Stmt} (h : ∀ s ∈ o, Builds limit s.literals (s.build limit) s) :
    Builds limit (optLiterals o) (buildOpt limit o) o := by
  cases o with
  | none => exact .ok none
  | some s => exact (h s rfl).map rfl

theorem Stmt.builds {s : Stmt} (h : (Node.stmt s).Throughout AsRead) :
    Builds limit s.literals (s.build limit) s := by
  induction s using Stmt.childInduction with
  | h s ih =>
    obtain ⟨_, hparts⟩ := h
    have hchild : ∀ t ∈ s.children, Builds limit t.literals (t.build limit) t :=
      fun t ht => ih t ht (hparts _ (mem_parts_iff.mpr ht))
    have hexpr {e : Expr} (he : .expr e ∈ s.parts) :
        Builds limit e.literals (e.build limit) e := Expr.builds limit (hparts _ he)
    have hopt {o : Option Expr} (ho : o.toList.map .expr ⊆ s.parts) :
        Builds limit (Expr.optLiterals o) (o.mapM (Expr.build limit)) o :=
      Expr.builds_opt limit fun e he =>
        hparts _ (ho (List.mem_map_of_mem (Option.mem_toList.mpr he)))
    cases s with
    | null | brk | cont => exact .ok _
    | compound body l => exact (builds_all limit hchild).map rfl
    | expr e l => exact (hexpr (.head _)).map rfl
    | decl d => exact (VarDecl.builds limit (hparts _ (.head _))).map rfl
    | ret value l => exact (hopt (List.Subset.refl _)).map rfl
    | ifElse c yes no l =>
      have hno := builds_opt limit fun t ht => hchild t (.tail _ (Option.mem_toList.mpr ht))
      exact (hexpr (.head _)).bind ((hchild yes (.head _)).bind (hno.map rfl))
    | switch c body l | whileLoop c body l =>
      exact (hexpr (.head _)).bind ((hchild body (.head _)).map rfl)
    | caseLabel value sub l => exact (hexpr (.head _)).bind ((hchild sub (.head _)).map rfl)
    | defaultLabel sub l => exact (hchild sub (.head _)).map rfl
    | forLoop init c step body l =>
      have hinit := builds_opt limit fun t ht =>
        hchild t (List.mem_append_left _ (Option.mem_toList.mpr ht))
      have hc : Builds limit (Expr.optLiterals c) (c.mapM (Expr.build limit)) c :=
        hopt fun b hb => by simp_all [parts]
      have hstep : Builds limit (Expr.optLiterals step) (step.mapM (Expr.build limit)) step :=
        hopt fun b hb => by simp_all [parts]
      have hbody := hchild body (List.mem_append_right _ (.head _))
      exact hinit.bind (hc.bind (hstep.bind (hbody.map rfl)))
    | rangeFor var range body typeName l =>
      exact (hexpr (.head _)).bind ((hchild body (.head _)).map rfl)
    | doWhile body c l =>
      exact (hchild body (.head _)).bind ((hexpr (.tail _ (.head _))).map rfl)
    | attributed attrs sub range l => exact (hchild sub (.head _)).map rfl
    | annotated attrs sub range l =>
      have hattrs : Builds limit (attrs.flatMap RawAttr.literals)
          (attrs.mapM (RawAttr.build limit)) attrs :=
        .mapM fun a ha => RawAttr.builds limit
          (hparts (.attr a) (List.mem_append_left _ (List.mem_map_of_mem ha)))
      exact hattrs.bind ((hchild sub (.head _)).map rfl)

theorem SourceUnit.builds {u : SourceUnit} (h : ∀ a ∈ u.roots, a.Throughout Node.AsRead) :
    Builds limit u.literals (u.build limit) u := by
  have hfunctions : Builds limit (u.functions.flatMap fun f => f.body.literals)
      (u.functions.mapM (Function.build limit)) u.functions := by
    refine .mapM fun f hf => ?_
    obtain ⟨_, hparts⟩ := h _ (List.mem_append_left _ (List.mem_map_of_mem hf))
    exact (Stmt.builds limit (hparts _ (.head _))).map rfl
  have hglobals : Builds limit (u.globals.flatMap VarDecl.literals)
      (u.globals.mapM (VarDecl.build limit)) u.globals :=
    .mapM fun d hd =>
      VarDecl.builds limit (h _ (List.mem_append_right _ (List.mem_map_of_mem hd)))
  exact hfunctions.bind (hglobals.map rfl)

end Nodes

section Source

variable {limit : DigitLimit} {config : Config} {file text : String} {u : SourceUnit}

theorem parseSource_of_parse (h : parse file text = .ok u) (limit : DigitLimit) :
    parseSource limit file text = (limit.settle u.literals u).mapError .unbuilt := by
  have hbuild : u.build limit = limit.settle u.literals u := u.builds limit (roots_of_parse h)
  unfold parseSource
  rw [h, ← hbuild]

theorem parseSource_of_converts (h : parse file text = .ok u)
    (hall : ∀ s ∈ u.literals, limit.converts s) : parseSource limit file text = .ok u := by
  rw [parseSource_of_parse h, DigitLimit.settle, if_pos (List.all_eq_true.mpr hall)]
  rfl

theorem parseSource_of_not_converts (h : parse file text = .ok u)
    (hnot : ∃ s ∈ u.literals, limit.converts s = false) :
    parseSource limit file text = .error (.unbuilt .tooManyDigits) := by
  obtain ⟨s, hs, hlong⟩ := hnot
  have hall : ¬ u.literals.all limit.converts := fun hall =>
    Bool.eq_false_iff.mp hlong (List.all_eq_true.mp hall s hs)
  rw [parseSource_of_parse h, DigitLimit.settle, if_neg hall]
  rfl

theorem parseSource_of_error {e : SourceError} (h : parse file text = .error e) :
    parseSource limit file text = .error (.unreadable e) := by
  unfold parseSource
  rw [h]

theorem checkWithin_of_converts (h : parse file text = .ok u)
    (hall : ∀ s ∈ u.literals, limit.converts s) (config : Config) :
    checkWithin limit config file text =
      .ok { u.checked config with events := u.readEvent :: (u.checked config).events } := by
  have houtcome := u.outcome_eq (SourceUnit.asRead_of_parse h) config
  unfold checkWithin
  rw [parseSource_of_converts h hall]
  exact houtcome

theorem checkWithin_of_not_converts (h : parse file text = .ok u)
    (hnot : ∃ s ∈ u.literals, limit.converts s = false) (config : Config) :
    checkWithin limit config file text = .error (.unbuilt .tooManyDigits) := by
  unfold checkWithin
  rw [parseSource_of_not_converts h hnot]
  rfl

theorem checkWithin_of_error {e : SourceError} (h : parse file text = .error e)
    (limit : DigitLimit) (config : Config) :
    checkWithin limit config file text = .error (.unreadable e) := by
  unfold checkWithin
  rw [parseSource_of_error h]
  rfl

theorem checkWithin_unbounded :
    checkWithin .unbounded config file text = checkSource config file text := by
  cases h : parse file text with
  | error e =>
    unfold checkSource
    rw [checkWithin_of_error h .unbounded config, h]
  | ok u =>
    rw [checkSource_eq h, checkWithin_of_converts h fun s _ => DigitLimit.converts_unbounded s]

end Source

end AttrCheck
