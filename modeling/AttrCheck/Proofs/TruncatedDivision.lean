import Mathlib.Algebra.Order.Group.Int
import AttrCheck.Proofs.ConstantRange

/-! Quotients and remainders of constants. Division truncates: a remainder is closer to zero than
the divisor and has the sign of the dividend. Only the quotient of the least number by minus one
leaves the width, and the remainder of these two is zero all the same. -/

namespace AttrCheck

/-- The one pair of numbers with a divisor that is not zero whose quotient does not fit. -/
def QuotientOverflows (a b : Int) : Prop := a = -2 ^ 63 ∧ b = -1

theorem natAbs_tmod_lt (a : Int) {b : Int} (hb : b ≠ 0) : (a.tmod b).natAbs < b.natAbs := by
  rw [Int.natAbs_tmod]
  exact Nat.mod_lt _ (Int.natAbs_pos.mpr hb)

theorem tmod_between (a b : Int) : 0 ≤ a.tmod b ∧ a.tmod b ≤ a ∨ a ≤ a.tmod b ∧ a.tmod b ≤ 0 := by
  have hle : (a.tmod b).natAbs ≤ a.natAbs := by
    rw [Int.natAbs_tmod]
    exact Nat.mod_le _ _
  obtain ha | ha := Int.le_total 0 a
  · have hr := Int.tmod_nonneg b ha
    exact .inl ⟨hr, by omega⟩
  · have hr := Int.tmod_nonneg b (Int.neg_nonneg_of_nonpos ha)
    rw [Int.neg_tmod] at hr
    exact .inr ⟨by omega, by omega⟩

theorem fits_tmod {a : Int} (ha : Fits a) (b : Int) : Fits (a.tmod b) := by
  obtain ⟨hlo, hhi⟩ := ha
  obtain ⟨h, h'⟩ | ⟨h, h'⟩ := tmod_between a b
  · exact ⟨by omega, by omega⟩
  · exact ⟨by omega, by omega⟩

theorem sign_tmod (a b : Int) : a.tmod b = 0 ∨ (a.tmod b).sign = a.sign := by
  obtain ⟨h, h'⟩ | ⟨h, h'⟩ := tmod_between a b
  · obtain hr | hr := Int.le_iff_eq_or_lt.mp h
    · exact .inl hr.symm
    · exact .inr ((Int.sign_eq_one_of_pos hr).trans (Int.sign_eq_one_of_pos (hr.trans_le h')).symm)
  · obtain hr | hr := Int.le_iff_eq_or_lt.mp h'
    · exact .inl hr
    · exact .inr ((Int.sign_eq_neg_one_of_neg hr).trans
        (Int.sign_eq_neg_one_of_neg (h.trans_lt hr)).symm)

theorem fits_tdiv_iff {a : Int} (ha : Fits a) (b : Int) :
    Fits (a.tdiv b) ↔ ¬ QuotientOverflows a b := by
  constructor
  · rintro hfits ⟨rfl, rfl⟩
    exact absurd hfits.2 (by decide)
  · intro hne
    obtain ⟨hlo, hhi⟩ := ha
    by_cases hleast : a = -2 ^ 63
    · have hb : b ≠ -1 := fun hb => hne ⟨hleast, hb⟩
      by_cases hone : b = 1
      · rw [hone, Int.tdiv_one]
        exact ⟨hlo, hhi⟩
      · -- Any divisor but these two at least halves the size.
        have hhalf : (a.tdiv b).natAbs ≤ a.natAbs / 2 := by
          rw [Int.natAbs_tdiv]
          obtain hzero | htwo : b.natAbs = 0 ∨ 2 ≤ b.natAbs := by omega
          · rw [hzero]
            exact (Nat.div_zero _).trans_le (Nat.zero_le _)
          · exact Nat.div_le_div_left htwo two_pos
        exact ⟨by omega, by omega⟩
    · have hsize := Int.natAbs_tdiv_le_natAbs a b
      exact ⟨by omega, by omega⟩

theorem isSome_fitting {n : Int} : (fitting n).isSome ↔ Fits n := by
  unfold fitting
  split
  next h => exact iff_of_true rfl h
  next h => exact iff_of_false (by simp) h

namespace BinaryOp

variable {a b : Int}

theorem isSome_value?_div (ha : Fits a) :
    (div.value? a b).isSome ↔ b ≠ 0 ∧ ¬ QuotientOverflows a b := by
  by_cases hb : b = 0
  · simp [value?, hb]
  · rw [value?, if_neg hb, isSome_fitting, fits_tdiv_iff ha b]
    exact (and_iff_right hb).symm

theorem value?_rem (ha : Fits a) :
    rem.value? a b = if b = 0 then none else some (a.tmod b) := by
  simp only [value?, fitting_eq_some_iff.mpr ⟨rfl, fits_tmod ha b⟩]

end BinaryOp

namespace Expr

variable {lhs rhs : Expr} {a b : Int}

theorem constant?_binary {op : BinaryOp} (ha : lhs.constant? = some a)
    (hb : rhs.constant? = some b) (hop : op.decided? a = none) (l : Loc) :
    (binary op lhs rhs l).constant? = op.value? a b := by
  rw [constant?, ha, Option.bind_some, hop, hb]
  rfl

/-- Two constants have a quotient and a remainder, or neither, unless the quotient alone leaves the
width: then the remainder is zero. The remainder is what truncating division leaves of the dividend.
-/
theorem quotient_remainder (ha : lhs.constant? = some a) (hb : rhs.constant? = some b) (l m : Loc) :
    let quotient := (binary .div lhs rhs l).constant?
    let remainder := (binary .rem lhs rhs m).constant?
    (¬ QuotientOverflows a b → (remainder.isSome ↔ quotient.isSome)) ∧
      (QuotientOverflows a b → quotient = none ∧ remainder = some 0) ∧
      (remainder.isSome ↔ b ≠ 0) ∧
      ∀ q r, quotient = some q → remainder = some r →
        a = b * q + r ∧ |r| < |b| ∧ (r = 0 ∨ r.sign = a.sign) := by
  intro quotient remainder
  have hfits := fits_constant? ha
  have hquotient : quotient = BinaryOp.div.value? a b := constant?_binary ha hb rfl l
  have hremainder : remainder = if b = 0 then none else some (a.tmod b) :=
    (constant?_binary ha hb rfl m).trans (BinaryOp.value?_rem hfits)
  have hsome : quotient.isSome ↔ b ≠ 0 ∧ ¬ QuotientOverflows a b :=
    hquotient ▸ BinaryOp.isSome_value?_div hfits
  have hsome' : remainder.isSome ↔ b ≠ 0 := by
    rw [hremainder]
    split_ifs with hzero <;> simp [hzero]
  refine ⟨fun hno => ?_, fun hover => ?_, hsome', fun q r hq hr => ?_⟩
  · rw [hsome', hsome]
    exact (and_iff_left hno).symm
  · constructor
    · exact Option.not_isSome_iff_eq_none.mp fun h => (hsome.mp h).2 hover
    · obtain ⟨rfl, rfl⟩ := hover
      rw [hremainder]
      rfl
  · have hzero : b ≠ 0 := hsome'.mp (hr ▸ rfl)
    rw [hremainder, if_neg hzero] at hr
    rw [hquotient, BinaryOp.value?, if_neg hzero] at hq
    obtain ⟨rfl, -⟩ := fitting_eq_some_iff.mp hq
    obtain rfl := Option.some.inj hr
    refine ⟨(Int.mul_tdiv_add_tmod a b).symm, ?_, sign_tmod a b⟩
    rw [Int.abs_eq_natAbs, Int.abs_eq_natAbs]
    exact Int.ofNat_lt.mpr (natAbs_tmod_lt a hzero)

theorem quotient_remainder_negative :
    let lhs := unary .minus (int 7 "7" .unknown) .unknown
    let rhs := int 2 "2" .unknown
    lhs.constant? = some (-7) ∧ rhs.constant? = some 2 ∧
      (binary .div lhs rhs .unknown).constant? = some (-3) ∧
      (binary .rem lhs rhs .unknown).constant? = some (-1) ∧
      (-7 : Int) = 2 * -3 + -1 ∧ |(-1 : Int)| < |2| ∧
      ((-1 : Int) = 0 ∨ (-1 : Int).sign = (-7 : Int).sign) := by
  intro lhs rhs
  have hlhs : lhs.constant? = some (-7) := by decide
  have hrhs : rhs.constant? = some 2 := by decide
  have hq : (binary .div lhs rhs .unknown).constant? = some (-3) := by decide
  have hr : (binary .rem lhs rhs .unknown).constant? = some (-1) := by decide
  exact ⟨hlhs, hrhs, hq, hr, (quotient_remainder hlhs hrhs .unknown .unknown).2.2.2 _ _ hq hr⟩

def least : Expr :=
  paren (binary .sub (unary .minus (int (2 ^ 63 - 1) "9223372036854775807" .unknown) .unknown)
    (int 1 "1" .unknown) .unknown) .unknown

/-- It is not so that a remainder is a constant just where the quotient is. -/
theorem remainder_without_quotient : ¬ ∀ (lhs rhs : Expr) (a b : Int) (l : Loc),
    lhs.constant? = some a → rhs.constant? = some b →
      ((binary .rem lhs rhs l).constant?.isSome ↔ (binary .div lhs rhs l).constant?.isSome) := by
  intro h
  have hleast := h least (unary .minus (int 1 "1" .unknown) .unknown) (-2 ^ 63) (-1) .unknown
    (by decide) (by decide)
  exact absurd hleast (by decide)

end Expr

end AttrCheck
