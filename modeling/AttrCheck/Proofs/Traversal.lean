import Mathlib.Data.List.Perm.Basic
import AttrCheck.Stmt

/-! The statements in a statement, in the two orders in which a tree is gone through. -/

namespace AttrCheck

namespace Stmt

mutual

def preorder (s : Stmt) : List Stmt :=
  s :: match s with
    | compound body _ => preorderAll body
    | ifElse _ yes none _ => yes.preorder
    | ifElse _ yes (some no) _ => yes.preorder ++ no.preorder
    | forLoop none _ _ body _ => body.preorder
    | forLoop (some init) _ _ body _ => init.preorder ++ body.preorder
    | switch _ sub _ | caseLabel _ sub _ | defaultLabel sub _ | rangeFor _ _ sub _ _
    | whileLoop _ sub _ | doWhile sub _ _ | attributed _ sub _ _ | annotated _ sub _ _ =>
      sub.preorder
    | null _ | expr _ _ | decl _ | ret _ _ | brk _ | cont _ => []

def preorderAll : List Stmt → List Stmt
  | [] => []
  | s :: ss => s.preorder ++ preorderAll ss

end

mutual

def postorder (s : Stmt) : List Stmt :=
  (match s with
    | compound body _ => postorderAll body
    | ifElse _ yes none _ => yes.postorder
    | ifElse _ yes (some no) _ => yes.postorder ++ no.postorder
    | forLoop none _ _ body _ => body.postorder
    | forLoop (some init) _ _ body _ => init.postorder ++ body.postorder
    | switch _ sub _ | caseLabel _ sub _ | defaultLabel sub _ | rangeFor _ _ sub _ _
    | whileLoop _ sub _ | doWhile sub _ _ | attributed _ sub _ _ | annotated _ sub _ _ =>
      sub.postorder
    | null _ | expr _ _ | decl _ | ret _ _ | brk _ | cont _ => []) ++ [s]

def postorderAll : List Stmt → List Stmt
  | [] => []
  | s :: ss => s.postorder ++ postorderAll ss

end

theorem preorderAll_eq_flatMap (ss : List Stmt) : preorderAll ss = ss.flatMap preorder := by
  induction ss with
  | nil => rfl
  | cons s ss ih => rw [preorderAll, ih, List.flatMap_cons]

theorem postorderAll_eq_flatMap (ss : List Stmt) : postorderAll ss = ss.flatMap postorder := by
  induction ss with
  | nil => rfl
  | cons s ss ih => rw [postorderAll, ih, List.flatMap_cons]

theorem preorder_eq (s : Stmt) : s.preorder = s :: s.children.flatMap preorder := by
  cases s with
  | compound body l => rw [preorder, preorderAll_eq_flatMap, children]
  | ifElse c yes no l => cases no <;> simp [preorder, children]
  | forLoop init c step body l => cases init <;> simp [preorder, children]
  | _ => simp [preorder, children]

theorem postorder_eq (s : Stmt) : s.postorder = s.children.flatMap postorder ++ [s] := by
  cases s with
  | compound body l => rw [postorder, postorderAll_eq_flatMap, children]
  | ifElse c yes no l => cases no <;> simp [postorder, children]
  | forLoop init c step body l => cases init <;> simp [postorder, children]
  | _ => simp [postorder, children]

theorem sizeOf_lt_of_mem_children {s t : Stmt} (h : t ∈ s.children) : sizeOf t < sizeOf s := by
  cases s with
  | compound body l =>
    have ht : sizeOf t < sizeOf body := List.sizeOf_lt_of_mem h
    simp only [compound.sizeOf_spec]
    omega
  | ifElse c yes no l => cases no <;> simp [children] at h <;> grind
  | forLoop init c step body l => cases init <;> simp [children] at h <;> grind
  | null | expr | decl | ret | brk | cont => simp [children] at h
  | _ =>
    obtain rfl : t = _ := by simpa [children] using h
    simp +arith

theorem childInduction {P : Stmt → Prop} (h : ∀ s : Stmt, (∀ t ∈ s.children, P t) → P s)
    (s : Stmt) : P s :=
  h s fun t _ => childInduction h t
termination_by sizeOf s
decreasing_by exact sizeOf_lt_of_mem_children ‹_›

theorem mem_preorder_self (s : Stmt) : s ∈ s.preorder := by
  rw [preorder_eq]
  exact .head _

theorem mem_preorder_of_child {s t u : Stmt} (ht : t ∈ s.children) (hu : u ∈ t.preorder) :
    u ∈ s.preorder := by
  rw [preorder_eq]
  exact .tail _ (List.mem_flatMap_of_mem ht hu)

theorem mem_preorder_trans {s t u : Stmt} (ht : t ∈ s.preorder) (hu : u ∈ t.preorder) :
    u ∈ s.preorder := by
  induction s using childInduction with
  | h s ih =>
    rw [preorder_eq] at ht
    obtain rfl | ht := List.mem_cons.mp ht
    · exact hu
    · obtain ⟨c, hc, hct⟩ := List.mem_flatMap.mp ht
      exact mem_preorder_of_child hc (ih c hc hct)

theorem postorder_perm_preorder (s : Stmt) : s.postorder.Perm s.preorder := by
  induction s using childInduction with
  | h s ih =>
    rw [postorder_eq, preorder_eq]
    refine List.perm_append_singleton _ _ |>.trans (.cons s ?_)
    exact List.Perm.flatMap_left s.children ih

end Stmt

end AttrCheck
