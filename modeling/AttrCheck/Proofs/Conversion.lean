import AttrCheck.Grammar.Build
import AttrCheck.Proofs.IntegerSpelling

/-! What the host makes of a literal. The base is told twice, by the grammar and from the text that
the grammar took, and both times it is the same: a literal has the value that was read, unless it
is decimal and longer than the host takes. -/

namespace AttrCheck

/-- The decimal digits that a text begins with. Behind a zero the base is another one. -/
def decimalDigits (text : String) : List Char :=
  match text.toList with
  | '0' :: _ => []
  | cs => cs.takeWhile Char.isDigit

namespace DigitLimit

def converts (limit : DigitLimit) (text : String) : Bool := limit.admits (decimalDigits text).length

variable (limit : DigitLimit)

theorem admits_of_le {count : Nat} (h : count ≤ 640) : limit.admits count := by
  unfold admits
  cases hm : limit.most with
  | none => rfl
  | some m => exact decide_eq_true (h.trans (limit.least m hm))

theorem converts_unbounded (text : String) : unbounded.converts text := rfl

theorem converts_of_zero {text : String} {cs : List Char} (h : text.toList = '0' :: cs) :
    limit.converts text := by
  rw [converts, decimalDigits, h]
  exact limit.admits_of_le (Nat.zero_le 640)

theorem converts_of_nonzero {text : String} {cs m : List Char} (h : text.toList = cs ++ m)
    (hcs : ∀ c ∈ cs, c.isDigit) (hne : cs ≠ []) (hhead : ∀ c ∈ cs.head?, c ≠ '0')
    (hm : ∀ c ∈ m.head?, c.isDigit = false) : limit.converts text = limit.admits cs.length := by
  have htake : m.takeWhile Char.isDigit = [] := by
    cases m with
    | nil => rfl
    | cons c m => exact List.takeWhile_cons_of_neg (Bool.eq_false_iff.mp (hm c rfl))
  have hdigits : decimalDigits text = cs := by
    unfold decimalDigits
    split
    next ds hds =>
      obtain ⟨c, cs, rfl⟩ := List.exists_cons_of_ne_nil hne
      rw [h] at hds
      cases hds
      exact absurd rfl (hhead '0' rfl)
    next =>
      rw [h, List.takeWhile_append_of_pos hcs, htake, List.append_nil]
  rw [converts, hdigits]

def settle {α : Type} (literals : List String) (a : α) : Except BuildError α :=
  if literals.all limit.converts then .ok a else .error .tooManyDigits

end DigitLimit

section Convert

variable (limit : DigitLimit)

theorem bareValue_octal {c : Char} {cs : List Char} (h : c ∉ baseLetters) :
    bareValue limit ('0' :: c :: cs) = convert limit 8 (c :: cs) := by
  unfold bareValue
  split
  case h_5 heq =>
    cases heq
    rfl
  case h_6 hother => exact absurd rfl (hother c cs)
  all_goals
    rename_i heq
    cases heq
    exact absurd (by decide) h

theorem bareValue_decimal {cs : List Char} (h : ∀ c ∈ cs.head?, c ≠ '0') :
    bareValue limit cs = convert limit 10 cs := by
  unfold bareValue
  split
  case h_6 => rfl
  all_goals exact absurd rfl (h '0' rfl)

namespace Radix

def counted (r : Radix) (cs : List Char) : Nat := if r = .decimal then cs.length else 0

variable {r : Radix} {mark : String} {cs : List Char}

theorem convert_of_admits (hcs : r.Admits cs) (hne : cs ≠ []) : convert limit r.base cs =
    if limit.admits (r.counted cs) then .ok (ofDigits r.base cs) else .error .tooManyDigits := by
  have hall : cs.all (isDigitOf r.base) := by
    refine List.all_eq_true.mpr fun c hc => ?_
    have hdigit := hcs.isDigit c hc
    simp [isDigitOf, isHexDigit_of_isDigit hdigit, Digit.hexValue_lt hdigit]
  have hzero := limit.admits_of_le (Nat.zero_le 640)
  cases r with
  | decimal => cases h : limit.admits cs.length <;> simp_all [convert, counted, base]
  | octal | hexadecimal | binary => simp_all [convert, counted, base]

theorem bareValue_append (hmark : mark ∈ r.marks) (hcs : r.Admits cs) :
    bareValue limit (mark.toList ++ cs) =
      if limit.admits (r.counted cs) then .ok (ofDigits r.base cs) else .error .tooManyDigits := by
  cases r with
  | decimal =>
    obtain rfl := List.mem_singleton.mp hmark
    rw [← convert_of_admits limit hcs (hcs.ne_nil (by decide))]
    by_cases hhead : ∀ c ∈ cs.head?, c ≠ '0'
    · exact bareValue_decimal limit hhead
    · push Not at hhead
      obtain ⟨c, hc, rfl⟩ := hhead
      rw [hcs.no_zero_in_front rfl _ hc rfl]
      rfl
  | octal =>
    obtain rfl := List.mem_singleton.mp hmark
    cases cs with
    | nil =>
      -- A zero alone has no other digits behind it, and so its base is told to be ten.
      have hzero : Radix.decimal.Admits ['0'] := ⟨by decide, by simp, fun _ _ _ _ => rfl⟩
      have hone := limit.admits_of_le (show 1 ≤ 640 by decide)
      have hnone := limit.admits_of_le (Nat.zero_le 640)
      exact (convert_of_admits limit hzero (List.cons_ne_nil _ _)).trans
        ((if_pos hone).trans (if_pos hnone).symm)
    | cons c cs =>
      have hc := not_mem_baseLetters (isDigit_of_isOctalDigit (hcs.isDigit c (.head _)))
      exact (bareValue_octal limit hc).trans (convert_of_admits limit hcs (List.cons_ne_nil _ _))
  | hexadecimal | binary =>
    simp only [marks, List.mem_cons, List.not_mem_nil, or_false] at hmark
    obtain rfl | rfl := hmark <;> exact convert_of_admits limit hcs (hcs.ne_nil (by decide))

theorem converts_append {ending text : String} (hmark : mark ∈ r.marks) (hcs : r.Admits cs)
    (hending : ending ∈ endings) (htext : text.toList = mark.toList ++ cs ++ ending.toList) :
    limit.converts text = limit.admits (r.counted cs) := by
  have hzero {cs : List Char} (h : text.toList = '0' :: cs) {count : Nat} (hcount : count ≤ 640) :
      limit.converts text = limit.admits count :=
    (limit.converts_of_zero h).trans (limit.admits_of_le hcount).symm
  cases r with
  | decimal =>
    obtain rfl := List.mem_singleton.mp hmark
    by_cases hhead : ∀ c ∈ cs.head?, c ≠ '0'
    · refine limit.converts_of_nonzero htext hcs.isDigit (hcs.ne_nil nofun) hhead fun c hc => ?_
      have hsuffix := isSuffixChar_of_mem (mem_endings_iff.mp hending) c (List.mem_of_mem_head? hc)
      exact Bool.eq_false_iff.mpr fun h => by simp [not_isSuffixChar_of_isDigit h] at hsuffix
    · push Not at hhead
      obtain ⟨c, hc, rfl⟩ := hhead
      obtain rfl := hcs.no_zero_in_front rfl _ hc rfl
      exact hzero htext (show 1 ≤ 640 by decide)
  | octal =>
    obtain rfl := List.mem_singleton.mp hmark
    exact hzero htext (Nat.zero_le 640)
  | hexadecimal | binary =>
    simp only [marks, List.mem_cons, List.not_mem_nil, or_false] at hmark
    obtain rfl | rfl := hmark <;> exact hzero htext (Nat.zero_le 640)

end Radix

end Convert

namespace IntegerSpelling

variable (limit : DigitLimit) (x : IntegerSpelling)

theorem converts_text :
    limit.converts x.text = limit.admits (x.radix.counted (x.digits.map Digit.char)) :=
  Radix.converts_append limit x.mark_mem x.admits x.ending_mem x.toList_text

theorem literalValue_text :
    literalValue limit x.text = limit.settle [x.text] x.value := by
  obtain ⟨_, hdrop⟩ :=
    spans_ending x.not_isSuffixChar_of_mem_bare (mem_endings_iff.mp x.ending_mem)
  rw [literalValue, x.toList_text, hdrop, List.reverse_reverse, bare,
    Radix.bareValue_append limit x.mark_mem x.admits, x.ofDigits_digits, ← x.converts_text]
  simp [DigitLimit.settle]

end IntegerSpelling

/-- Whatever integer is read, its text is converted to it. -/
theorem integerValue_of_isLiteral {value : Int} {text : String} (h : IsLiteral value text)
    (limit : DigitLimit) : integerValue limit text = limit.settle [text] value := by
  cases h with
  | @number n _ h =>
    obtain ⟨x, htext, rfl⟩ := IntegerSpelling.exists_of_wordNumber h
    obtain rfl := String.toList_inj.mp htext
    have hword : ∀ w ∈ ["true", "false"], wordNumber? w.toList = none := by decide
    have hne (w : String) (hw : w ∈ ["true", "false"]) : x.text ≠ w := by
      rintro rfl
      cases (hword _ hw).symm.trans h
    rw [integerValue, if_neg (hne "true" (by decide)), if_neg (hne "false" (by decide)),
      x.literalValue_text]
    unfold DigitLimit.settle
    split <;> rfl
  | yes | no =>
    have hnone := limit.admits_of_le (Nat.zero_le 640)
    exact (if_pos (List.all_eq_true.mpr (List.forall_mem_singleton.mpr hnone))).symm

end AttrCheck
