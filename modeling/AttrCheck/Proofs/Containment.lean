import Mathlib.Logic.Relation
import AttrCheck.Walk
import AttrCheck.Proofs.Traversal

/-! What stands inside what. The nodes of a unit are its functions and variables, their statements,
the attributes on these, and the expressions and identifiers in all of them. A walk that stops
nowhere enters just the statements that stand in the bodies. -/

namespace AttrCheck

inductive Node where
  | function (f : Function)
  | var (d : VarDecl)
  | stmt (s : Stmt)
  | attr (a : RawAttr)
  | ident (i : Ident)
  | expr (e : Expr)

def Expr.parts : Expr → List Expr
  | int _ _ _ | string _ _ | name _ _ _ => []
  | paren e _ | unary _ e _ => [e]
  | binary _ e e' _ | assign _ e e' _ => [e, e']
  | conditional c e e' _ => [c, e, e']
  | call callee args _ => callee :: args

theorem Expr.sizeOf_lt_of_mem_parts {e e' : Expr} (h : e' ∈ e.parts) : sizeOf e' < sizeOf e := by
  cases e with
  | call callee args l =>
    rcases List.mem_cons.mp h with rfl | h
    · simp only [call.sizeOf_spec]
      omega
    · have hlt : sizeOf e' < sizeOf args := List.sizeOf_lt_of_mem h
      simp only [call.sizeOf_spec]
      omega
  | int | string | name => cases h
  | _ =>
    simp only [parts, List.mem_cons, List.not_mem_nil, or_false] at h
    rcases h with rfl | rfl | rfl <;> simp +arith

theorem Expr.partsInduction {P : Expr → Prop} (h : ∀ e : Expr, (∀ e' ∈ e.parts, P e') → P e)
    (e : Expr) : P e :=
  h e fun e' _ => partsInduction h e'
termination_by sizeOf e
decreasing_by exact sizeOf_lt_of_mem_parts ‹_›

def Arg.node : Arg → Node
  | ident i => .ident i
  | expr e => .expr e

def Stmt.parts : Stmt → List Node
  | null _ | brk _ | cont _ => []
  | compound body _ => body.map .stmt
  | expr e _ => [.expr e]
  | decl d => [.var d]
  | ret value _ => value.toList.map .expr
  | ifElse c yes no _ => .expr c :: .stmt yes :: no.toList.map .stmt
  | switch c body _ | whileLoop c body _ => [.expr c, .stmt body]
  | caseLabel value sub _ => [.expr value, .stmt sub]
  | defaultLabel sub _ => [.stmt sub]
  | forLoop init c step body _ =>
    init.toList.map .stmt ++ c.toList.map .expr ++ step.toList.map .expr ++ [.stmt body]
  | rangeFor _ range body _ _ => [.expr range, .stmt body]
  | doWhile body c _ => [.stmt body, .expr c]
  | attributed _ sub _ _ => [.stmt sub]
  | annotated attrs sub _ _ => attrs.map .attr ++ [.stmt sub]

namespace Node

def loc : Node → Loc
  | function f => f.loc
  | var d => d.loc
  | stmt s => s.loc
  | attr a => a.loc
  | ident i => i.loc
  | expr e => e.loc

def parts : Node → List Node
  | function f => [.stmt f.body]
  | var d => d.init.toList.map .expr
  | stmt s => s.parts
  | attr a => a.args.filterMap (·.map Arg.node)
  | ident _ => []
  | expr e => e.parts.map .expr

def Contains : Node → Node → Prop := Relation.ReflTransGen fun a b => b ∈ a.parts

inductive Throughout (P : Node → Prop) : Node → Prop where
  | intro {a : Node} (self : P a) (parts : ∀ b ∈ a.parts, Throughout P b) : Throughout P a

variable {P : Node → Prop} {a b : Node}

theorem Throughout.of_contains (h : a.Throughout P) (hb : a.Contains b) : b.Throughout P := by
  induction hb with
  | refl => exact h
  | tail _ hpart ih =>
    obtain ⟨_, hparts⟩ := ih
    exact hparts _ hpart

theorem Throughout.self (h : a.Throughout P) : P a := by
  obtain ⟨hself, _⟩ := h
  exact hself

def HoldsNoStmt : Node → Prop
  | function _ | stmt _ => False
  | _ => True

theorem HoldsNoStmt.part (h : a.HoldsNoStmt) (hb : b ∈ a.parts) : b.HoldsNoStmt := by
  cases a with
  | function | stmt => exact h.elim
  | attr a =>
    obtain ⟨arg, _, harg⟩ := List.mem_filterMap.mp hb
    obtain ⟨arg, _, rfl⟩ := Option.map_eq_some_iff.mp harg
    cases arg <;> trivial
  | ident i => cases hb
  | var d =>
    obtain ⟨e, _, rfl⟩ := List.mem_map.mp hb
    trivial
  | expr e =>
    obtain ⟨e', _, rfl⟩ := List.mem_map.mp hb
    trivial

def IsInside (s : Stmt) : Node → Prop
  | stmt t => t ∈ s.preorder
  | a => a.HoldsNoStmt

end Node

namespace Stmt

theorem mem_parts_iff {s t : Stmt} : .stmt t ∈ s.parts ↔ t ∈ s.children := by
  cases s <;> simp [parts, children]

theorem function_not_mem_parts {s : Stmt} (f : Function) : .function f ∉ s.parts := by
  cases s <;> simp [parts]

theorem isInside_part {s : Stmt} {a b : Node} (ha : Node.IsInside s a) (hb : b ∈ a.parts) :
    Node.IsInside s b := by
  have hleaf (hn : b.HoldsNoStmt) : Node.IsInside s b := by
    cases b with
    | function | stmt => exact hn.elim
    | _ => trivial
  cases a with
  | stmt t =>
    cases b with
    | function f => exact absurd hb (function_not_mem_parts f)
    | stmt r =>
      have hchild := mem_preorder_of_child (mem_parts_iff.mp hb) (mem_preorder_self r)
      exact mem_preorder_trans ha hchild
    | _ => trivial
  | function f => exact ha.elim
  | _ => exact hleaf (Node.HoldsNoStmt.part (by trivial) hb)

theorem contains_iff {s t : Stmt} : (Node.stmt s).Contains (.stmt t) ↔ t ∈ s.preorder := by
  constructor
  · intro h
    have hinside {b : Node} (hb : (Node.stmt s).Contains b) : Node.IsInside s b := by
      induction hb with
      | refl => exact mem_preorder_self s
      | tail _ hpart ih => exact isInside_part ih hpart
    exact hinside h
  · intro h
    induction s using childInduction with
    | h s ih =>
      rw [preorder_eq] at h
      rcases List.mem_cons.mp h with rfl | h
      · exact .refl
      · obtain ⟨c, hc, ht⟩ := List.mem_flatMap.mp h
        exact .head (mem_parts_iff.mpr hc) (ih c hc ht)

end Stmt

theorem Node.function_contains_iff {f : Function} {s : Stmt} :
    (function f).Contains (.stmt s) ↔ s ∈ f.body.preorder := by
  constructor
  · intro h
    rcases Relation.ReflTransGen.cases_head h with h | ⟨b, hb, h⟩
    · cases h
    · obtain rfl := List.mem_singleton.mp hb
      exact Stmt.contains_iff.mp h
  · intro h
    exact .head (.head _) (Stmt.contains_iff.mpr h)

namespace Stmt

def visit (s : Stmt) : Visit := .entered s.kind s.loc (s.children.map kind)

theorem walkAll_eq_flatMap (stop : Option String) (ss : List Stmt) :
    walkAll stop ss = ss.flatMap (walk stop) := by
  induction ss with
  | nil => rfl
  | cons s ss ih => rw [walkAll, ih, List.flatMap_cons]

theorem walk_none_eq (s : Stmt) : s.walk none = s.visit :: s.children.flatMap (walk none) := by
  unfold walk
  rw [if_neg nofun]
  cases s with
  | compound body l => exact congrArg _ (walkAll_eq_flatMap none body)
  | ifElse c yes no l => cases no <;> simp [visit, children]
  | forLoop init c step body l => cases init <;> simp [visit, children]
  | _ => simp [visit, children]

theorem walk_none (s : Stmt) : s.walk none = s.preorder.map visit := by
  induction s using childInduction with
  | h s ih =>
    rw [walk_none_eq, preorder_eq, List.map_cons, List.map_flatMap]
    exact congrArg _ (List.flatMap_congr ih)

end Stmt

namespace SourceUnit

def roots (u : SourceUnit) : List Node := u.functions.map .function ++ u.globals.map .var

def bodyStmts (u : SourceUnit) : List Stmt := u.functions.flatMap fun f => f.body.preorder

theorem walk_none (u : SourceUnit) : u.walk none = u.bodyStmts.map Stmt.visit := by
  rw [bodyStmts, List.map_flatMap]
  exact List.flatMap_congr fun f _ => f.body.walk_none

end SourceUnit

end AttrCheck
