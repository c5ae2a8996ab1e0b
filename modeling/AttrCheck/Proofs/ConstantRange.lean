import Mathlib.Tactic.Linarith
import Mathlib.Tactic.SplitIfs
import AttrCheck.Expr.Constant

/-! A constant always fits the width. Most operations are checked against it; the others cannot
leave it, and neither can what is picked by a short circuit. -/

namespace AttrCheck

def Fits (n : Int) : Prop := -0x8000000000000000 ≤ n ∧ n < 0x8000000000000000

theorem fits_of_fitting {n v : Int} (h : fitting n = some v) : Fits v := by
  obtain ⟨rfl, hn⟩ := fitting_eq_some_iff.mp h
  exact hn

theorem fits_ofBool (b : Bool) : Fits (ofBool b) := by
  cases b <;> simp [Fits, ofBool]

/-- The bits in front of the sign, those of a negative number turned over. -/
def magnitude : Int → Nat
  | .ofNat n | .negSucc n => n

theorem fits_iff_magnitude {n : Int} : Fits n ↔ magnitude n < 2 ^ 63 := by
  unfold Fits
  cases n with
  | ofNat n =>
    simp only [magnitude, Int.ofNat_eq_natCast]
    omega
  | negSucc n =>
    simp only [magnitude, Int.negSucc_eq]
    omega

theorem fits_onNatBits (f : Bool → Bool → Bool) {m n : Nat} (hm : m < 2 ^ 63) (hn : n < 2 ^ 63) :
    Fits (onNatBits f m n) := by
  rw [fits_iff_magnitude, onNatBits]
  split_ifs
  · exact Nat.bitwise_lt_two_pow hm hn
  · exact Nat.bitwise_lt_two_pow hm hn

theorem fits_onBits (f : Bool → Bool → Bool) {a b : Int} (ha : Fits a) (hb : Fits b) :
    Fits (onBits f a b) := by
  rw [fits_iff_magnitude] at ha hb
  cases a with
  | ofNat m =>
    cases b with
    | ofNat n => exact fits_onNatBits f ha hb
    | negSucc n => exact fits_onNatBits (fun x y => f x !y) ha hb
  | negSucc m =>
    cases b with
    | ofNat n => exact fits_onNatBits (fun x y => f (!x) y) ha hb
    | negSucc n => exact fits_onNatBits (fun x y => f (!x) !y) ha hb

theorem fits_shiftRight {a : Int} (ha : Fits a) (n : Nat) : Fits (a >>> n) := by
  have hpos : (0 : Int) < 2 ^ n := Int.pow_pos (by decide)
  have hone : (1 : Int) ≤ 2 ^ n := hpos
  obtain ⟨hlo, hhi⟩ := ha
  rw [Fits, Int.shiftRight_eq_div_pow]
  push_cast
  refine ⟨?_, ?_⟩
  · rw [Int.le_ediv_iff_mul_le hpos]
    nlinarith only [hlo, hone]
  · rw [Int.ediv_lt_iff_lt_mul hpos]
    nlinarith only [hhi, hone]

namespace UnaryOp

theorem fits_value? {op : UnaryOp} {a v : Int} (ha : Fits a) (h : op.value? a = some v) :
    Fits v := by
  cases op with
  | plus =>
    obtain rfl := Option.some.inj h
    exact ha
  | minus => exact fits_of_fitting h
  | lnot =>
    obtain rfl := Option.some.inj h
    exact fits_ofBool _
  | bnot =>
    obtain rfl := Option.some.inj h
    obtain ⟨hlo, hhi⟩ := ha
    refine ⟨?_, ?_⟩ <;> omega
  | preInc | preDec | postInc | postDec => cases h

end UnaryOp

namespace BinaryOp

theorem fits_value? {op : BinaryOp} {a b v : Int} (ha : Fits a) (hb : Fits b)
    (h : op.value? a b = some v) : Fits v := by
  cases op with
  | add | sub | mul => exact fits_of_fitting h
  | div | rem =>
    simp only [value?] at h
    split_ifs at h
    exact fits_of_fitting h
  | shl =>
    simp only [value?] at h
    split_ifs at h
    exact fits_of_fitting h
  | shr =>
    simp only [value?] at h
    split_ifs at h
    obtain rfl := Option.some.inj h
    exact fits_shiftRight ha _
  | band | bxor | bor =>
    obtain rfl := Option.some.inj h
    exact fits_onBits _ ha hb
  | lt | gt | le | ge | eq | ne | land | lor =>
    obtain rfl := Option.some.inj h
    exact fits_ofBool _

theorem fits_decided? {op : BinaryOp} {a v : Int} (h : op.decided? a = some v) : Fits v := by
  unfold decided? at h
  split at h
  · split_ifs at h
    obtain rfl := Option.some.inj h
    exact fits_ofBool false
  · split_ifs at h
    obtain rfl := Option.some.inj h
    exact fits_ofBool true
  · cases h

end BinaryOp

namespace Expr

theorem fits_constant? {e : Expr} {v : Int} (h : e.constant? = some v) : Fits v := by
  fun_induction constant? e generalizing v with
  | case1 value text l => exact fits_of_fitting h
  | case2 value l => cases h
  | case3 n b l hb => cases h
  | case4 n b l hb =>
    obtain ⟨w, _, hv⟩ := Option.bind_eq_some_iff.mp h
    exact fits_of_fitting hv
  | case5 inner l ih => exact ih h
  | case6 op operand l ih =>
    obtain ⟨a, ha, hv⟩ := Option.bind_eq_some_iff.mp h
    exact UnaryOp.fits_value? (ih ha) hv
  | case7 op lhs rhs l ihl ihr =>
    obtain ⟨a, ha, hv⟩ := Option.bind_eq_some_iff.mp h
    split at hv
    next w hw =>
      obtain rfl := Option.some.inj hv
      exact BinaryOp.fits_decided? hw
    next =>
      obtain ⟨b, hb, hv⟩ := Option.bind_eq_some_iff.mp hv
      exact BinaryOp.fits_value? (ihl ha) (ihr hb) hv
  | case8 c yes no l ihc ihn ihy =>
    obtain ⟨a, _, hv⟩ := Option.bind_eq_some_iff.mp h
    split at hv
    · exact ihn hv
    · exact ihy hv
  | case9 => cases h
  | case10 => cases h

end Expr

end AttrCheck
