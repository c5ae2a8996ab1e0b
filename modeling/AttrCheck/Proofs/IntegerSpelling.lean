import Mathlib.Data.List.Induction
import Mathlib.Data.Nat.Digits.Defs
import AttrCheck.Proofs.OperandReading

/-! Integers as C writes them: a mark that tells the base, digits in either case, and an ending that
tells the type. The words that are read as numbers are just these, each with the value that its
digits write. -/

namespace AttrCheck

inductive Radix where
  | decimal | octal | hexadecimal | binary
deriving DecidableEq

namespace Radix

def base : Radix → Nat
  | decimal => 10
  | octal => 8
  | hexadecimal => 16
  | binary => 2

def marks : Radix → List String
  | decimal => [""]
  | octal => ["0"]
  | hexadecimal => ["0x", "0X"]
  | binary => ["0b", "0B"]

def isDigit : Radix → Char → Bool
  | decimal => Char.isDigit
  | octal => isOctalDigit
  | hexadecimal => isHexDigit
  | binary => isBinaryDigit

theorem one_lt_base (r : Radix) : 1 < r.base := by
  cases r <;> decide

theorem base_le (r : Radix) : r.base ≤ 16 := by
  cases r <;> decide

theorem isHexDigit_of_isDigit {r : Radix} {c : Char} (h : r.isDigit c) : isHexDigit c := by
  cases r with
  | decimal => simp [isHexDigit, show c.isDigit from h]
  | octal => exact isHexDigit_of_isOctalDigit h
  | hexadecimal => exact h
  | binary =>
    simp only [isDigit, isBinaryDigit, Bool.or_eq_true, decide_eq_true_eq] at h
    obtain rfl | rfl := h <;> decide

end Radix

structure Digit (base : Nat) where
  value : Fin base
  isCapital : Bool

namespace Digit

def char {base : Nat} (d : Digit base) : Char :=
  if d.isCapital then d.value.val.digitChar.toUpper else d.value.val.digitChar

theorem hexValue_char {base : Nat} (hbase : base ≤ 16) (d : Digit base) :
    hexValue d.char = d.value := by
  have hall : ∀ v < 16, ∀ capital : Bool,
      hexValue (if capital then v.digitChar.toUpper else v.digitChar) = v := by
    decide
  exact hall d.value (d.value.isLt.trans_le hbase) d.isCapital

theorem isDigit_iff {r : Radix} {c : Char} : r.isDigit c ↔ ∃ d : Digit r.base, d.char = c := by
  constructor
  · intro h
    have hlt : c.toNat < 128 := by
      have hc := Radix.isHexDigit_of_isDigit h
      have hle {u : Char} (h : c ≤ u) (hu : u.toNat < 128) : c.toNat < 128 :=
        Nat.lt_of_le_of_lt (UInt32.le_iff_toNat_le.mp h) hu
      simp only [isHexDigit, Char.isDigit, Bool.or_eq_true, Bool.and_eq_true,
        decide_eq_true_eq] at hc
      obtain (hc | hc) | hc := hc
      · exact hle (u := '9') hc.2 (by decide)
      · exact hle (u := 'f') hc.2 (by decide)
      · exact hle (u := 'F') hc.2 (by decide)
    -- Of the first 128 characters each that is read as a digit is one that is written.
    have hall : ∀ n < 128, r.isDigit (Char.ofNat n) → ∃ (v : Fin r.base) (capital : Bool),
        Digit.char ⟨v, capital⟩ = Char.ofNat n := by
      cases r <;> decide +kernel
    rw [← Char.ofNat_toNat c] at h
    obtain ⟨v, capital, hchar⟩ := hall c.toNat hlt h
    exact ⟨⟨v, capital⟩, hchar.trans (Char.ofNat_toNat c)⟩
  · rintro ⟨d, rfl⟩
    have hall : ∀ (v : Fin r.base) (capital : Bool), r.isDigit (Digit.char ⟨v, capital⟩) := by
      cases r <;> decide
    exact hall d.value d.isCapital

theorem hexValue_lt {r : Radix} {c : Char} (h : r.isDigit c) : hexValue c < r.base := by
  obtain ⟨d, rfl⟩ := isDigit_iff.mp h
  rw [hexValue_char r.base_le]
  exact d.value.isLt

theorem exists_map_char {r : Radix} {cs : List Char} (h : ∀ c ∈ cs, r.isDigit c) :
    ∃ ds : List (Digit r.base), ds.map char = cs := by
  induction cs with
  | nil => exact ⟨[], rfl⟩
  | cons c cs ih =>
    obtain ⟨hc, hcs⟩ := List.forall_mem_cons.mp h
    obtain ⟨d, rfl⟩ := isDigit_iff.mp hc
    obtain ⟨ds, rfl⟩ := ih hcs
    exact ⟨d :: ds, rfl⟩

theorem ofDigits_map_char {base : Nat} (hbase : base ≤ 16) (ds : List (Digit base)) :
    ofDigits base (ds.map char) = Nat.ofDigits base (ds.map (·.value.val)).reverse := by
  induction ds using List.reverseRecOn with
  | nil => rfl
  | append_singleton ds d ih =>
    rw [List.map_append, List.map_singleton, ofDigits_append_singleton, ih, hexValue_char hbase,
      List.map_append, List.reverse_append, List.map_singleton, List.reverse_singleton,
      List.singleton_append, Nat.ofDigits_cons, Nat.add_comm]

end Digit

namespace Radix

/-- Digits that may stand behind a mark of the base: an octal mark may stand alone, and a decimal
number begins with no zero unless it is zero. -/
structure Admits (r : Radix) (cs : List Char) : Prop where
  isDigit : ∀ c ∈ cs, r.isDigit c
  ne_nil : r ≠ .octal → cs ≠ []
  no_zero_in_front : r = .decimal → ∀ c ∈ cs.head?, c = '0' → cs = ['0']

variable {r : Radix} {mark : String} {cs : List Char}

theorem bareNumber?_append (hmark : mark ∈ r.marks) (h : r.Admits cs) :
    bareNumber? (mark.toList ++ cs) = some (ofDigits r.base cs) := by
  have hall : cs.all r.isDigit := List.all_eq_true.mpr h.isDigit
  have hdigits (hr : r ≠ .octal) : (!cs.isEmpty && cs.all r.isDigit) = true := by
    simp [h.ne_nil hr, hall]
  cases r with
  | decimal =>
    obtain rfl := List.mem_singleton.mp hmark
    by_cases hhead : ∀ c ∈ cs.head?, c ≠ '0'
    · exact (bareNumber?_nonzero hhead).trans (if_pos (hdigits nofun))
    · push Not at hhead
      obtain ⟨c, hc, rfl⟩ := hhead
      rw [h.no_zero_in_front rfl _ hc rfl]
      decide
  | octal =>
    obtain rfl := List.mem_singleton.mp hmark
    have hhead : ∀ c ∈ cs.head?, c ∉ baseLetters := fun c hc =>
      not_mem_baseLetters (isDigit_of_isOctalDigit (h.isDigit c (List.mem_of_mem_head? hc)))
    exact (bareNumber?_zero hhead).trans (if_pos hall)
  | hexadecimal | binary =>
    simp only [marks, List.mem_cons, List.not_mem_nil, or_false] at hmark
    obtain rfl | rfl := hmark <;> exact if_pos (hdigits nofun)

theorem admits_of_all (hr : r ≠ .decimal) (h : (!cs.isEmpty && cs.all r.isDigit) = true) :
    r.Admits cs := by
  obtain ⟨hempty, hall⟩ := Bool.and_eq_true_iff.mp h
  exact ⟨List.all_eq_true.mp hall, fun _ => by simpa using hempty, fun h => absurd h hr⟩

theorem exists_mark_of_bareNumber {bare : List Char} {n : Nat} (h : bareNumber? bare = some n) :
    ∃ r : Radix, ∃ mark ∈ r.marks, ∃ cs, r.Admits cs ∧ bare = mark.toList ++ cs ∧
      n = ofDigits r.base cs := by
  have hmarked (r : Radix) (mark : String) (hmark : mark ∈ r.marks) {cs : List Char}
      (hcs : r.Admits cs) (hbare : bare = mark.toList ++ cs)
      (hn : some (ofDigits r.base cs) = some n) : ∃ r : Radix, ∃ mark ∈ r.marks, ∃ cs,
        r.Admits cs ∧ bare = mark.toList ++ cs ∧ n = ofDigits r.base cs :=
    ⟨r, mark, hmark, cs, hcs, hbare, (Option.some.inj hn).symm⟩
  unfold bareNumber? at h
  split at h
  · split at h
    all_goals split_ifs at h with hcs
    · exact hmarked .hexadecimal "0x" (by decide) (admits_of_all nofun hcs) rfl h
    · exact hmarked .hexadecimal "0X" (by decide) (admits_of_all nofun hcs) rfl h
    · exact hmarked .binary "0b" (by decide) (admits_of_all nofun hcs) rfl h
    · exact hmarked .binary "0B" (by decide) (admits_of_all nofun hcs) rfl h
    · exact hmarked .octal "0" (by decide) ⟨List.all_eq_true.mp hcs, nofun, nofun⟩ rfl h
  next hzero =>
    split_ifs at h with hcs
    obtain ⟨hempty, hall⟩ := Bool.and_eq_true_iff.mp hcs
    refine hmarked .decimal "" (by decide)
      ⟨List.all_eq_true.mp hall, fun _ => by simpa using hempty, ?_⟩ rfl h
    rintro _ c hc rfl
    obtain ⟨ds, hds⟩ := List.head?_eq_some_iff.mp hc
    exact (hzero ds hds).elim

theorem bareNumber?_eq_none {c : Char} (hmark : mark ∈ r.marks) (hcs : r.Admits cs)
    (hc : r.isDigit c = false) (hlone : mark.toList ++ cs = ['0'] → c ∉ baseLetters)
    (m : List Char) : bareNumber? (mark.toList ++ (cs ++ c :: m)) = none := by
  have hall {p : Char → Bool} (hp : p c = false) : ¬ (cs ++ c :: m).all p := fun hall =>
    Bool.eq_false_iff.mp hp (List.all_eq_true.mp hall c (List.mem_append_right _ (.head _)))
  have hdigits {p : Char → Bool} (hp : p c = false) :
      ¬ (!(cs ++ c :: m).isEmpty && (cs ++ c :: m).all p) = true := fun h =>
    hall hp (Bool.and_eq_true_iff.mp h).2
  cases r with
  | decimal =>
    obtain rfl := List.mem_singleton.mp hmark
    by_cases hhead : ∀ d ∈ cs.head?, d ≠ '0'
    · have hsame : (cs ++ c :: m).head? = cs.head? :=
        List.head?_append_of_ne_nil _ (hcs.ne_nil nofun)
      rw [← hsame] at hhead
      exact (bareNumber?_nonzero hhead).trans (if_neg (hdigits hc))
    · push Not at hhead
      obtain ⟨d, hd, rfl⟩ := hhead
      obtain rfl := hcs.no_zero_in_front rfl _ hd rfl
      have hhead : ∀ d ∈ (c :: m).head?, d ∉ baseLetters := by
        rintro d ⟨⟩
        exact hlone rfl
      have hoctal : isOctalDigit c = false :=
        Bool.eq_false_iff.mpr fun h => Bool.eq_false_iff.mp hc (isDigit_of_isOctalDigit h)
      exact (bareNumber?_zero hhead).trans (if_neg fun h =>
        Bool.eq_false_iff.mp hoctal (List.all_eq_true.mp h c (.head _)))
  | octal =>
    obtain rfl := List.mem_singleton.mp hmark
    have hhead : ∀ d ∈ (cs ++ c :: m).head?, d ∉ baseLetters := by
      cases cs with
      | nil =>
        rintro d ⟨⟩
        exact hlone rfl
      | cons d ds =>
        rintro _ ⟨⟩
        exact not_mem_baseLetters (isDigit_of_isOctalDigit (hcs.isDigit d (.head _)))
    exact (bareNumber?_zero hhead).trans (if_neg (hall hc))
  | hexadecimal | binary =>
    simp only [marks, List.mem_cons, List.not_mem_nil, or_false] at hmark
    obtain rfl | rfl := hmark <;> exact if_neg (hdigits hc)

theorem isDigit_of_mem_toDigits (r : Radix) (n : Nat) :
    ∀ c ∈ Nat.toDigits r.base n, r.isDigit c := by
  have hdigit {v : Nat} (hv : v < r.base) : r.isDigit v.digitChar :=
    Digit.isDigit_iff.mpr ⟨⟨⟨v, hv⟩, false⟩, rfl⟩
  induction n using Nat.strongRecOn with
  | ind n ih =>
    by_cases hlt : n < r.base
    · rw [Nat.toDigits_of_lt_base hlt]
      exact List.forall_mem_singleton.mpr (hdigit hlt)
    · have hone := r.one_lt_base
      rw [Nat.toDigits_of_base_le hone (Nat.le_of_not_lt hlt)]
      exact List.forall_mem_append.mpr ⟨ih _ (Nat.div_lt_self (by omega) hone),
        List.forall_mem_singleton.mpr (hdigit (Nat.mod_lt n (by omega)))⟩

theorem admits_toDigits (r : Radix) (n : Nat) : r.Admits (Nat.toDigits r.base n) where
  isDigit := r.isDigit_of_mem_toDigits n
  ne_nil _ := Nat.toDigits_ne_nil
  no_zero_in_front hr c hc hzero := by
    subst hr
    obtain rfl | hpos := Nat.eq_zero_or_pos n
    · rfl
    · exact absurd hzero (head?_toDigits hpos c hc)

end Radix

def unsignedEndings : List String := ["u", "U"]

def longEndings : List String := ["ll", "LL", "l", "L"]

def endings : List String :=
  "" :: unsignedEndings ++ longEndings ++
    (unsignedEndings.flatMap fun u => longEndings.map (u ++ ·)) ++
    longEndings.flatMap fun l => unsignedEndings.map (l ++ ·)

theorem nil_mem_endings : "" ∈ endings := .head _

theorem mem_endings_iff {s : String} : s ∈ endings ↔ s ∈ numberSuffixes := by
  have hmem : ∀ s ∈ endings, s ∈ numberSuffixes := by decide
  have hmem' : ∀ s ∈ numberSuffixes, s ∈ endings := by decide
  exact ⟨hmem s, hmem' s⟩

structure IntegerSpelling where
  radix : Radix
  mark : String
  digits : List (Digit radix.base)
  ending : String
  mark_mem : mark ∈ radix.marks
  /-- An octal zero may be its mark alone. -/
  digits_ne_nil : radix ≠ .octal → digits ≠ []
  /-- A decimal number begins with no zero unless it is zero. -/
  no_zero_in_front : radix = .decimal → ∀ d ∈ digits.head?, d.value.val = 0 → digits = [d]
  ending_mem : ending ∈ endings

namespace IntegerSpelling

def bare (x : IntegerSpelling) : List Char := x.mark.toList ++ x.digits.map Digit.char

def text (x : IntegerSpelling) : String := String.ofList x.bare ++ x.ending

def value (x : IntegerSpelling) : Nat :=
  Nat.ofDigits x.radix.base (x.digits.map (·.value.val)).reverse

theorem toList_text (x : IntegerSpelling) : x.text.toList = x.bare ++ x.ending.toList := by
  rw [text, String.toList_append, String.toList_ofList]

theorem ofDigits_digits (x : IntegerSpelling) :
    ofDigits x.radix.base (x.digits.map Digit.char) = x.value :=
  Digit.ofDigits_map_char x.radix.base_le x.digits

theorem admits (x : IntegerSpelling) : x.radix.Admits (x.digits.map Digit.char) where
  isDigit c hc := by
    obtain ⟨d, _, hd⟩ := List.mem_map.mp hc
    exact Digit.isDigit_iff.mpr ⟨d, hd⟩
  ne_nil hr := List.map_eq_nil_iff.not.mpr (x.digits_ne_nil hr)
  no_zero_in_front hr c hc hzero := by
    rw [List.head?_map] at hc
    obtain ⟨d, hd, rfl⟩ := Option.map_eq_some_iff.mp hc
    have hvalue := Digit.hexValue_char x.radix.base_le d
    rw [hzero] at hvalue
    rw [x.no_zero_in_front hr d hd hvalue.symm, List.map_singleton, hzero]

theorem not_isSuffixChar_of_mem_bare (x : IntegerSpelling) :
    ∀ c ∈ x.bare, isSuffixChar c = false := by
  have hmarks : ∀ r : Radix, ∀ s ∈ r.marks, ∀ c ∈ s.toList, isSuffixChar c = false := by
    intro r
    cases r <;> decide
  have hdigits : ∀ (v : Fin 16) (capital : Bool),
      isSuffixChar (Digit.char ⟨v, capital⟩) = false := by
    decide
  refine List.forall_mem_append.mpr ⟨hmarks x.radix x.mark x.mark_mem, fun c hc => ?_⟩
  have hhex : Radix.hexadecimal.isDigit c := Radix.isHexDigit_of_isDigit (x.admits.isDigit c hc)
  obtain ⟨d, rfl⟩ := Digit.isDigit_iff.mp hhex
  exact hdigits d.value d.isCapital

theorem bareNumber?_bare (x : IntegerSpelling) : bareNumber? x.bare = some x.value := by
  rw [← x.ofDigits_digits]
  exact Radix.bareNumber?_append x.mark_mem x.admits

theorem wordNumber?_text (x : IntegerSpelling) : wordNumber? x.text.toList = some x.value := by
  rw [toList_text, wordNumber?_append x.not_isSuffixChar_of_mem_bare
    (mem_endings_iff.mp x.ending_mem), x.bareNumber?_bare]

theorem exists_of_admits {r : Radix} {mark ending : String} {cs : List Char}
    (hmark : mark ∈ r.marks) (hcs : r.Admits cs) (hending : ending ∈ endings) :
    ∃ x : IntegerSpelling, x.text.toList = mark.toList ++ cs ++ ending.toList ∧
      x.value = ofDigits r.base cs := by
  obtain ⟨ds, rfl⟩ := Digit.exists_map_char hcs.isDigit
  refine ⟨⟨r, mark, ds, ending, hmark, fun hr => List.map_eq_nil_iff.not.mp (hcs.ne_nil hr),
    ?_, hending⟩, ?_, ?_⟩
  · rintro rfl d hd hzero
    obtain ⟨ds', rfl⟩ := List.head?_eq_some_iff.mp hd
    have hchar : d.char = '0' := by
      rw [Digit.char, hzero]
      split <;> rfl
    have hlone := hcs.no_zero_in_front rfl d.char rfl hchar
    rw [List.map_cons, List.cons.injEq, List.map_eq_nil_iff] at hlone
    rw [hlone.2]
  · rw [toList_text, bare]
  · rw [← ofDigits_digits]

/-- What is read as a number is written by the rules, and as that number. -/
theorem exists_of_wordNumber {word : List Char} {n : Nat} (h : wordNumber? word = some n) :
    ∃ x : IntegerSpelling, x.text.toList = word ∧ x.value = n := by
  obtain ⟨bare, ending, hending, rfl, hbare⟩ := exists_ending_of_wordNumber h
  obtain ⟨r, mark, hmark, cs, hcs, rfl, rfl⟩ := Radix.exists_mark_of_bareNumber hbare
  exact exists_of_admits hmark hcs (mem_endings_iff.mpr hending)

theorem exists_of_toDigits (n : Nat) {r : Radix} {mark ending : String} (hmark : mark ∈ r.marks)
    (hending : ending ∈ endings) : ∃ x : IntegerSpelling, x.value = n ∧
      x.text = mark ++ String.ofList (Nat.toDigits r.base n) ++ ending := by
  obtain ⟨x, htext, hvalue⟩ := exists_of_admits hmark (r.admits_toDigits n) hending
  rw [ofDigits_toDigits r.one_lt_base r.base_le] at hvalue
  refine ⟨x, hvalue, String.toList_inj.mp ?_⟩
  rw [htext, String.toList_append, String.toList_append, String.toList_ofList]

end IntegerSpelling

end AttrCheck
