import AttrCheck.Expr

/-!
Constant folding at the width of 64 bits, signed. An operation whose result does not fit, a
division by zero, a shift out of range and anything that only the run decides leave the
expression without a constant value.
-/

namespace AttrCheck

def fitting (n : Int) : Option Int :=
  if -0x8000000000000000 ≤ n ∧ n < 0x8000000000000000 then some n else none

theorem fitting_eq_some_iff {n m : Int} :
    fitting n = some m ↔ n = m ∧ -0x8000000000000000 ≤ n ∧ n < 0x8000000000000000 := by
  unfold fitting
  split
  next h => exact ⟨fun e => ⟨Option.some.inj e, h⟩, fun e => congrArg some e.1⟩
  next h => exact ⟨fun e => absurd e (by simp), fun e => absurd e.2 h⟩

def ofBool (b : Bool) : Int := if b then 1 else 0

def onNatBits (f : Bool → Bool → Bool) (m n : Nat) : Int :=
  if f false false then .negSucc (Nat.bitwise (fun x y => !f x y) m n) else Nat.bitwise f m n

/-- A bitwise operation on integers of any size; the bits of a negative one end in ones without
end. -/
def onBits (f : Bool → Bool → Bool) : Int → Int → Int
  | .ofNat m, .ofNat n => onNatBits f m n
  | .ofNat m, .negSucc n => onNatBits (fun x y => f x (!y)) m n
  | .negSucc m, .ofNat n => onNatBits (fun x y => f (!x) y) m n
  | .negSucc m, .negSucc n => onNatBits (fun x y => f (!x) (!y)) m n

def UnaryOp.value? (op : UnaryOp) (a : Int) : Option Int :=
  if op.assigns then none
  else match op with
    | plus => some a
    | minus => fitting (-a)
    | lnot => some (ofBool (a = 0))
    | _ => some (-a - 1)

namespace BinaryOp

def value? (op : BinaryOp) (a b : Int) : Option Int :=
  match op with
  | add => fitting (a + b)
  | sub => fitting (a - b)
  | mul => fitting (a * b)
  | div => if b = 0 then none else fitting (a.tdiv b)
  | rem => if b = 0 then none else fitting (a.tmod b)
  | shl => if b < 0 ∨ 64 ≤ b ∨ a < 0 then none else fitting (a <<< b.toNat)
  | shr => if b < 0 ∨ 64 ≤ b then none else some (a >>> b.toNat)
  | band => some (onBits (· && ·) a b)
  | bxor => some (onBits (· ^^ ·) a b)
  | bor => some (onBits (· || ·) a b)
  | lt => some (ofBool (a < b))
  | gt => some (ofBool (b < a))
  | le => some (ofBool (a ≤ b))
  | ge => some (ofBool (b ≤ a))
  | eq => some (ofBool (a = b))
  | ne => some (ofBool (a ≠ b))
  | land => some (ofBool (a ≠ 0 && b ≠ 0))
  | lor => some (ofBool (a ≠ 0 || b ≠ 0))

def decided? (op : BinaryOp) (a : Int) : Option Int :=
  match op with
  | land => if a = 0 then some 0 else none
  | lor => if a = 0 then none else some 1
  | _ => none

end BinaryOp

namespace Expr

def constant? : Expr → Option Int
  | int value _ _ => fitting value
  | string _ _ => none
  | name _ b _ => if b.isTemplateParam then none else b.constant.bind fitting
  | paren inner _ => inner.constant?
  | unary op operand _ => operand.constant?.bind op.value?
  | binary op lhs rhs _ =>
    lhs.constant?.bind fun a =>
      match op.decided? a with
      | some v => some v
      | none => rhs.constant?.bind (op.value? a)
  | conditional c yes no _ =>
    c.constant?.bind fun a => if a = 0 then no.constant? else yes.constant?
  | call _ _ _ => none
  | assign _ _ _ _ => none

mutual

def isDependent : Expr → Bool
  | int _ _ _ => false
  | string _ _ => false
  | name _ b _ => b.isTemplateParam
  | paren inner _ => inner.isDependent
  | unary _ operand _ => operand.isDependent
  | binary _ lhs rhs _ => lhs.isDependent || rhs.isDependent
  | conditional c yes no _ => c.isDependent || yes.isDependent || no.isDependent
  | call callee args _ => callee.isDependent || anyDependent args
  | assign _ target value _ => target.isDependent || value.isDependent

def anyDependent : List Expr → Bool
  | [] => false
  | e :: es => e.isDependent || anyDependent es

end

theorem anyDependent_eq_any (es : List Expr) : anyDependent es = es.any isDependent := by
  induction es with
  | nil => rfl
  | cons e es ih => simp [anyDependent, ih]

end Expr

end AttrCheck
