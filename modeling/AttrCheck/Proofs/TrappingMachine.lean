import Mathlib.Data.Int.Bitwise
import AttrCheck.Proofs.ConstantRange

/-! A machine of 64-bit words, in two's complement, whose arithmetic traps. Folding goes by integers
of any size, and checks some of them against the width and others not. Still it comes to a value
just where the machine comes to a word without a trap, and the word stands for the value. -/

namespace AttrCheck

abbrev Word := BitVec 64

inductive Trap where
  /-- A number that no word stands for. -/
  | unrepresentable
  | overflow
  | zeroDivisor
  | shiftCount
  /-- A shift of a negative word to the left. -/
  | negativeShift
  | templateParam
  | unbound
  | string
  | call
  | assignment
deriving DecidableEq

namespace Word

def load (n : Int) : Except Trap Word :=
  let w : Word := BitVec.ofInt 64 n
  if w.toInt = n then .ok w else .error .unrepresentable

def truth (b : Bool) : Word := if b then 1 else 0

def checked (overflowed : Bool) (w : Word) : Except Trap Word :=
  if overflowed then .error .overflow else .ok w

def places (w : Word) : Except Trap Nat :=
  if w.toNat < 64 then .ok w.toNat else .error .shiftCount

def shiftLeft (w : Word) (n : Nat) : Except Trap Word :=
  if w.msb then .error .negativeShift else checked ((w <<< n).sshiftRight n ≠ w) (w <<< n)

end Word

open Word

namespace UnaryOp

def execute (op : UnaryOp) (a : Word) : Except Trap Word :=
  match op with
  | plus => .ok a
  | minus => checked a.negOverflow (-a)
  | lnot => .ok (truth (a = 0))
  | bnot => .ok (~~~a)
  | preInc | preDec | postInc | postDec => .error .assignment

end UnaryOp

namespace BinaryOp

def execute (op : BinaryOp) (a b : Word) : Except Trap Word :=
  match op with
  | add => checked (a.saddOverflow b) (a + b)
  | sub => checked (a.ssubOverflow b) (a - b)
  | mul => checked (a.smulOverflow b) (a * b)
  | div => if b = 0 then .error .zeroDivisor else checked (a.sdivOverflow b) (a.sdiv b)
  | rem => if b = 0 then .error .zeroDivisor else .ok (a.srem b)
  | shl => do a.shiftLeft (← b.places)
  | shr => do return a.sshiftRight (← b.places)
  | band => .ok (a &&& b)
  | bxor => .ok (a ^^^ b)
  | bor => .ok (a ||| b)
  | lt => .ok (truth (a.slt b))
  | gt => .ok (truth (b.slt a))
  | le => .ok (truth (a.sle b))
  | ge => .ok (truth (b.sle a))
  | eq => .ok (truth (a = b))
  | ne => .ok (truth (a ≠ b))
  | land => .ok (truth (a ≠ 0 && b ≠ 0))
  | lor => .ok (truth (a ≠ 0 || b ≠ 0))

end BinaryOp

namespace Expr

/-- What the machine makes of an expression. It goes into the operands that are evaluated only. -/
def run : Expr → Except Trap Word
  | int value _ _ => load value
  | string _ _ => .error .string
  | name _ b _ =>
    if b.isTemplateParam then .error .templateParam
    else match b.constant with
      | none => .error .unbound
      | some n => load n
  | paren inner _ => inner.run
  | unary op operand _ => do op.execute (← operand.run)
  | binary op lhs rhs _ => do
    let a ← lhs.run
    if op = .land ∧ a = 0 then return 0
    else if op = .lor ∧ a ≠ 0 then return 1
    else op.execute a (← rhs.run)
  | conditional c yes no _ => do if (← c.run) = 0 then no.run else yes.run
  | call _ _ _ => .error .call
  | assign _ _ _ _ => .error .assignment

end Expr

namespace Word

def value? (r : Except Trap Word) : Option Int := r.toOption.map BitVec.toInt

@[simp] theorem value?_ok (w : Word) : value? (.ok w) = some w.toInt := rfl

@[simp] theorem value?_error (t : Trap) : value? (.error t) = none := rfl

theorem value?_bind (r : Except Trap Word) {f : Word → Except Trap Word} {g : Int → Option Int}
    (h : ∀ w : Word, g w.toInt = value? (f w)) : value? (r >>= f) = (value? r).bind g := by
  cases r with
  | error t => rfl
  | ok w => exact (h w).symm

theorem fits_toInt (w : Word) : Fits w.toInt := ⟨BitVec.le_toInt _, BitVec.toInt_lt⟩

theorem fitting_toInt (w : Word) : fitting w.toInt = some w.toInt := if_pos (fits_toInt w)

theorem fitting_eq_none {n : Int} (h : ¬ Fits n) : fitting n = none := if_neg h

theorem value?_load (n : Int) : value? (load n) = fitting n := by
  unfold load
  by_cases h : Fits n
  · have hw : (BitVec.ofInt 64 n).toInt = n := BitVec.toInt_ofInt_eq_self (by decide) h.1 h.2
    rw [if_pos hw, value?_ok, ← fitting_toInt, hw]
  · have hw : (BitVec.ofInt 64 n).toInt ≠ n := fun hw => h (hw ▸ fits_toInt _)
    rw [if_neg hw, value?_error, fitting_eq_none h]

theorem value?_checked {overflowed : Bool} {w : Word} {n : Int}
    (ho : overflowed = true → ¬ Fits n) (hw : overflowed = false → w.toInt = n) :
    value? (checked overflowed w) = fitting n := by
  cases overflowed with
  | true => exact (fitting_eq_none (ho rfl)).symm
  | false =>
    obtain rfl := hw rfl
    exact (fitting_toInt w).symm

theorem toInt_truth (b : Bool) : (truth b).toInt = ofBool b := by
  cases b <;> rfl

theorem toInt_eq_zero {w : Word} : w.toInt = 0 ↔ w = 0 := by
  rw [← BitVec.toInt_inj]
  rfl

theorem toInt_not (w : Word) : (~~~w).toInt = -w.toInt - 1 := by
  have hlt := w.isLt
  rw [BitVec.toInt_not, BitVec.toInt_eq_toNat_cond, Int.bmod_def]
  split <;> split <;> omega

theorem value?_neg (a : Word) : value? (checked a.negOverflow (-a)) = fitting (-a.toInt) := by
  refine value?_checked (fun ho hf => ?_) fun hw =>
    BitVec.toInt_neg_of_not_negOverflow (by simp [hw])
  have hmin : a.toInt = -2 ^ 63 := by simpa [BitVec.negOverflow] using ho
  rw [hmin] at hf
  exact absurd hf.2 (by decide)

theorem value?_exact {overflowed : Bool} {w : Word} {n : Int}
    (hw : ¬ overflowed = true → w.toInt = n)
    (ho : overflowed = (decide (n ≥ 2 ^ 63) || decide (n < -2 ^ 63))) :
    value? (checked overflowed w) = fitting n := by
  refine value?_checked (fun h hf => ?_) fun h => hw (by simp [h])
  obtain ⟨hlo, hhi⟩ := hf
  rw [ho, Bool.or_eq_true, decide_eq_true_eq, decide_eq_true_eq] at h
  omega

theorem value?_sdiv (a b : Word) :
    value? (checked (a.sdivOverflow b) (a.sdiv b)) = fitting (a.toInt.tdiv b.toInt) := by
  have ho : a.sdivOverflow b = true ↔ a = BitVec.intMin 64 ∧ b = -1#64 := by
    simp [BitVec.sdivOverflow_eq, BitVec.neg_one_eq_allOnes]
  refine value?_checked (fun h hf => ?_) fun h => BitVec.toInt_sdiv_of_ne_or_ne a b ?_
  · obtain ⟨rfl, rfl⟩ := ho.mp h
    exact absurd hf.2 (by decide)
  · have hne := ho.not.mp (by simp [h])
    exact not_and_or.mp hne

theorem value?_places (b : Word) (f : Nat → Except Trap Word) : value? (b.places >>= f) =
    if b.toInt < 0 ∨ 64 ≤ b.toInt then none else value? (f b.toInt.toNat) := by
  have hlt := b.isLt
  have hb := BitVec.toInt_eq_toNat_cond b
  unfold places
  split_ifs with hn hz hz
  · omega
  · have hnat : b.toInt.toNat = b.toNat := by omega
    rw [hnat]
    rfl
  · rfl
  · omega

theorem value?_shiftLeft (a : Word) (n : Nat) :
    value? (a.shiftLeft n) = if a.toInt < 0 then none else fitting (a.toInt <<< n) := by
  unfold shiftLeft
  rw [BitVec.msb_eq_toInt, Int.shiftLeft_eq]
  by_cases ha : a.toInt < 0
  · rw [if_pos ha, if_pos (by simpa using ha), value?_error]
  rw [if_neg ha, if_neg (by simpa using ha)]
  have hpos : (0 : Int) < 2 ^ n := Int.pow_pos (by decide)
  have hback : ((a <<< n).sshiftRight n).toInt = (a <<< n).toInt / 2 ^ n := by
    rw [BitVec.toInt_sshiftRight, Int.shiftRight_eq_div_pow]
    push_cast
    rfl
  -- The word holds the product modulo `2 ^ 64`: only one that fits can be divided back.
  have hshift : Fits (a.toInt * 2 ^ n) → (a <<< n).toInt = a.toInt * 2 ^ n := by
    rintro ⟨hlo, hhi⟩
    have hmod : (a <<< n).toInt = (a.toInt * 2 ^ n).bmod (2 ^ 64) := by
      rw [BitVec.toInt_shiftLeft, Nat.shiftLeft_eq, BitVec.toInt_eq_toNat_bmod]
      simp
    rw [hmod]
    exact Int.bmod_eq_of_le (by norm_num; exact hlo) (by norm_num; exact hhi)
  have hrestored : (a <<< n).sshiftRight n = a ↔ Fits (a.toInt * 2 ^ n) := by
    rw [← BitVec.toInt_inj, hback]
    constructor
    · intro h
      have hle : a.toInt * 2 ^ n ≤ (a <<< n).toInt := by
        rw [← h]
        exact Int.ediv_mul_le _ hpos.ne'
      have hnonneg : 0 ≤ a.toInt * 2 ^ n := Int.mul_nonneg (not_lt.mp ha) hpos.le
      exact ⟨by omega, hle.trans_lt (fits_toInt _).2⟩
    · intro h
      rw [hshift h, Int.mul_ediv_cancel _ hpos.ne']
  refine value?_checked (fun ho => ?_) fun ho => hshift ?_
  · exact hrestored.not.mp (of_decide_eq_true ho)
  · exact hrestored.mp (not_not.mp (of_decide_eq_false ho))

/-- The bits of the number that a word stands for go on without end, with the sign of the word. -/
theorem testBit_toInt (w : Word) (i : Nat) :
    w.toInt.testBit i = if i < 64 then w.getLsbD i else w.msb := by
  cases hm : w.msb with
  | false =>
    rw [BitVec.toInt_eq_toNat_of_msb hm]
    show w.toNat.testBit i = _
    rw [BitVec.testBit_toNat]
    split_ifs with hi
    · rfl
    · exact BitVec.getLsbD_of_ge w i (not_lt.mp hi)
  | true =>
    have hneg : w.toInt = Int.negSucc (~~~w).toNat := by
      have hnot := toInt_not w
      rw [BitVec.toInt_eq_toNat_of_msb (by simp [hm])] at hnot
      rw [Int.negSucc_eq]
      omega
    rw [hneg]
    show (!(~~~w).toNat.testBit i) = _
    rw [BitVec.testBit_toNat, BitVec.getLsbD_not]
    split_ifs with hi <;> simp [hi]

theorem eq_of_testBit_eq {a b : Int} (h : ∀ i, a.testBit i = b.testBit i) : a = b := by
  -- Far enough out the bits are those of the sign.
  have hsign (m n : Nat) : ∃ i, m.testBit i = n.testBit i := by
    have hfar {k : Nat} (hk : k ≤ m + n) : k.testBit (m + n) = false :=
      Nat.testBit_lt_two_pow (Nat.lt_two_pow_self.trans_le (Nat.pow_le_pow_right two_pos hk))
    exact ⟨m + n, (hfar (Nat.le_add_right m n)).trans (hfar (Nat.le_add_left n m)).symm⟩
  cases a with
  | ofNat m =>
    cases b with
    | ofNat n => exact congrArg Int.ofNat (Nat.eq_of_testBit_eq h)
    | negSucc n =>
      obtain ⟨i, hi⟩ := hsign m n
      have hbit : m.testBit i = !n.testBit i := h i
      simp [hi] at hbit
  | negSucc m =>
    cases b with
    | ofNat n =>
      obtain ⟨i, hi⟩ := hsign m n
      have hbit : (!m.testBit i) = n.testBit i := h i
      simp [hi] at hbit
    | negSucc n =>
      exact congrArg Int.negSucc (Nat.eq_of_testBit_eq fun i => Bool.not_inj (h i))

theorem onBits_eq_bitwise (f : Bool → Bool → Bool) (a b : Int) :
    onBits f a b = Int.bitwise f a b := by
  have hnat (g : Bool → Bool → Bool) (m n : Nat) : onNatBits g m n = Int.natBitwise g m n := by
    unfold onNatBits Int.natBitwise
    cases g false false <;> rfl
  cases a <;> cases b <;> rw [onBits, hnat] <;> rfl

theorem onBits_toInt {f : Word → Word → Word} {op : Bool → Bool → Bool}
    (hbit : ∀ a b i, i < 64 → (f a b).getLsbD i = op (a.getLsbD i) (b.getLsbD i))
    (hmsb : ∀ a b, (f a b).msb = op a.msb b.msb) (a b : Word) :
    onBits op a.toInt b.toInt = (f a b).toInt := by
  refine eq_of_testBit_eq fun i => ?_
  rw [onBits_eq_bitwise, Int.testBit_bitwise, testBit_toInt, testBit_toInt, testBit_toInt]
  split_ifs with hi
  · exact (hbit a b i hi).symm
  · exact (hmsb a b).symm

end Word

theorem UnaryOp.value?_execute (op : UnaryOp) (a : Word) :
    op.value? a.toInt = Word.value? (op.execute a) := by
  cases op with
  | plus => rfl
  | minus => exact (value?_neg a).symm
  | lnot => simp [value?, assigns, execute, toInt_truth, toInt_eq_zero]
  | bnot => exact congrArg some (toInt_not a).symm
  | preInc | preDec | postInc | postDec => rfl

theorem BinaryOp.value?_execute (op : BinaryOp) (a b : Word) :
    op.value? a.toInt b.toInt = Word.value? (op.execute a b) := by
  have hzero : b.toInt = 0 ↔ b = 0 := toInt_eq_zero
  cases op with
  | add => exact (value?_exact BitVec.toInt_add_of_not_saddOverflow rfl).symm
  | sub => exact (value?_exact BitVec.toInt_sub_of_not_ssubOverflow rfl).symm
  | mul => exact (value?_exact BitVec.toInt_mul_of_not_smulOverflow rfl).symm
  | div =>
    simp only [value?, execute, hzero]
    split_ifs
    · rfl
    · exact (value?_sdiv a b).symm
  | rem =>
    simp only [value?, execute, hzero]
    split_ifs
    · rfl
    · rw [← BitVec.toInt_srem, fitting_toInt, value?_ok]
  | shl =>
    rw [execute, value?_places, value?_shiftLeft, value?]
    by_cases hcount : b.toInt < 0 ∨ 64 ≤ b.toInt
    · rw [if_pos (or_assoc.mp (.inl hcount)), if_pos hcount]
    · simp only [← or_assoc, hcount, false_or, if_false]
  | shr =>
    rw [execute, value?_places, value?]
    refine if_congr Iff.rfl rfl ?_
    rw [← BitVec.toInt_sshiftRight]
    rfl
  | band => exact congrArg some (onBits_toInt (f := (· &&& ·)) (by simp) (by simp) a b)
  | bxor => exact congrArg some (onBits_toInt (f := (· ^^^ ·)) (by simp) (by simp) a b)
  | bor => exact congrArg some (onBits_toInt (f := (· ||| ·)) (by simp) (by simp) a b)
  | lt | gt => simp only [value?, execute, value?_ok, toInt_truth, BitVec.slt_eq_decide]
  | le | ge => simp only [value?, execute, value?_ok, toInt_truth, BitVec.sle_eq_decide]
  | eq | ne => simp only [value?, execute, value?_ok, toInt_truth, BitVec.toInt_inj, ne_eq]
  | land | lor =>
    simp only [value?, execute, value?_ok, toInt_truth, toInt_eq_zero, ne_eq]

namespace Expr

theorem constant?_eq_value? (e : Expr) : e.constant? = Word.value? e.run := by
  fun_induction constant? e with
  | case1 value text l => exact (value?_load value).symm
  | case2 value l => rfl
  | case3 n b l hb => rw [run, if_pos hb, value?_error]
  | case4 n b l hb =>
    rw [run, if_neg hb]
    cases b.constant with
    | none => rfl
    | some v => exact (value?_load v).symm
  | case5 inner l ih => exact ih
  | case6 op operand l ih =>
    rw [run, value?_bind operand.run op.value?_execute, ih]
  | case7 op lhs rhs l ihl ihr =>
    rw [run, ihl]
    refine (value?_bind lhs.run fun a => ?_).symm
    have hrest : rhs.constant?.bind (op.value? a.toInt) =
        Word.value? (rhs.run >>= op.execute a) := by
      rw [value?_bind rhs.run (op.value?_execute a), ihr]
    by_cases hand : op = .land ∧ a = 0
    · obtain ⟨rfl, rfl⟩ := hand
      rfl
    by_cases hor : op = .lor ∧ a ≠ 0
    · rw [if_neg hand, if_pos hor, hor.1, BinaryOp.decided?, if_neg (toInt_eq_zero.not.mpr hor.2)]
      rfl
    · -- What is left is what the left operand does not decide.
      have hopen : op.decided? a.toInt = none := by
        cases op <;> simp_all [BinaryOp.decided?, toInt_eq_zero]
      rw [if_neg hand, if_neg hor, hopen]
      exact hrest
  | case8 c yes no l ihc ihn ihy =>
    rw [run, ihc]
    refine (value?_bind c.run fun a => ?_).symm
    simp only [toInt_eq_zero]
    split_ifs
    · exact ihn
    · exact ihy
  | case9 => rfl
  | case10 => rfl

/-- Folding comes to a value just where the machine meets no trap, and then to the one that its word
stands for, within the bounds of the width. Where the machine traps there is no value. -/
theorem constant?_eq_run (e : Expr) :
    (∀ v, e.constant? = some v ↔ ∃ w, e.run = .ok w ∧ w.toInt = v) ∧
      (e.constant? = none ↔ ∃ trap, e.run = .error trap) ∧
      ∀ v, e.constant? = some v → -2 ^ 63 ≤ v ∧ v ≤ 2 ^ 63 - 1 := by
  have heq := e.constant?_eq_value?
  refine ⟨?_, ?_, ?_⟩
  · intro v
    rw [heq]
    cases e.run with
    | error trap => simp
    | ok w => simp
  · rw [heq]
    cases e.run with
    | error trap => simp
    | ok w => simp
  · intro v hv
    obtain ⟨hlo, hhi⟩ := fits_constant? hv
    exact ⟨hlo, by omega⟩

/-- The least number has no quotient by minus one, but a remainder. -/
example : (binary .div (int (-2 ^ 63) "" .unknown) (int (-1) "" .unknown) .unknown).run =
    .error .overflow := by decide

example : (binary .rem (int (-2 ^ 63) "" .unknown) (int (-1) "" .unknown) .unknown).run =
    .ok 0 := by decide

end Expr

end AttrCheck
