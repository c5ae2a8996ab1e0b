import AttrCheck.Expr.Constant

/-! Constants and template parameters. An expression may have a value although a template parameter
occurs in it, for an operand that is not evaluated need not be constant. It has one just where
nothing that is put in the place of the parameters makes a difference. -/

namespace AttrCheck

namespace Expr

mutual

def instantiate (σ : String → Expr) : Expr → Expr
  | int value text l => int value text l
  | string value l => string value l
  | name n b l => if b.isTemplateParam then σ n else name n b l
  | paren inner l => paren (inner.instantiate σ) l
  | unary op operand l => unary op (operand.instantiate σ) l
  | binary op lhs rhs l => binary op (lhs.instantiate σ) (rhs.instantiate σ) l
  | conditional c yes no l =>
    conditional (c.instantiate σ) (yes.instantiate σ) (no.instantiate σ) l
  | call callee args l => call (callee.instantiate σ) (instantiateAll σ args) l
  | assign op target value l => assign op (target.instantiate σ) (value.instantiate σ) l

def instantiateAll (σ : String → Expr) : List Expr → List Expr
  | [] => []
  | e :: es => e.instantiate σ :: instantiateAll σ es

end

theorem constant?_instantiate {e : Expr} {v : Int} (h : e.constant? = some v)
    (σ : String → Expr) : (e.instantiate σ).constant? = some v := by
  fun_induction constant? e generalizing v with
  | case1 value text l => exact h
  | case2 value l => cases h
  | case3 n b l hb => cases h
  | case4 n b l hb =>
    rw [instantiate, if_neg hb, constant?, if_neg hb]
    exact h
  | case5 inner l ih => exact ih h
  | case6 op operand l ih =>
    obtain ⟨a, ha, hv⟩ := Option.bind_eq_some_iff.mp h
    rw [instantiate, constant?, ih ha]
    exact hv
  | case7 op lhs rhs l ihl ihr =>
    obtain ⟨a, ha, hv⟩ := Option.bind_eq_some_iff.mp h
    rw [instantiate, constant?, ihl ha, Option.bind_some]
    cases hd : op.decided? a with
    | some w =>
      -- The right operand is not evaluated, so nothing is asked of its instance.
      rw [hd] at hv
      exact hv
    | none =>
      rw [hd] at hv
      obtain ⟨b, hb, hv⟩ := Option.bind_eq_some_iff.mp hv
      exact Option.bind_eq_some_iff.mpr ⟨b, ihr hb, hv⟩
  | case8 c yes no l ihc ihn ihy =>
    obtain ⟨a, ha, hv⟩ := Option.bind_eq_some_iff.mp h
    rw [instantiate, constant?, ihc ha, Option.bind_some]
    split at hv
    next hz => rw [if_pos hz]; exact ihn hv
    next hz => rw [if_neg hz]; exact ihy hv
  | case9 => cases h
  | case10 => cases h

theorem constant?_instantiate_runtime (e : Expr) :
    (e.instantiate fun n => name n .runtime .unknown).constant? = e.constant? := by
  fun_induction constant? e with
  | case3 n b l hb => rw [instantiate, if_pos hb]; rfl
  | case4 n b l hb => rw [instantiate, if_neg hb, constant?, if_neg hb]
  | case5 inner l ih => exact ih
  | case6 op operand l ih => rw [instantiate, constant?, ih]
  | case7 op lhs rhs l ihl ihr => rw [instantiate, constant?, ihl, ihr]
  | case8 c yes no l ihc ihn ihy => rw [instantiate, constant?, ihc, ihn, ihy]
  | case1 | case2 | case9 | case10 => rfl

/-- Whether every instance of the expression has this value. -/
def IsAlways (e : Expr) (v : Int) : Prop := ∀ σ, (e.instantiate σ).constant? = some v

theorem constant?_eq_some_iff (e : Expr) (v : Int) : e.constant? = some v ↔ e.IsAlways v := by
  refine ⟨constant?_instantiate, fun h => ?_⟩
  rw [← constant?_instantiate_runtime]
  exact h _

end Expr

end AttrCheck
