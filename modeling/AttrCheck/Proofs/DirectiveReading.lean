import Mathlib.Data.List.Forall2
import AttrCheck.Proofs.AttributedShape
import AttrCheck.Proofs.Lookahead
import AttrCheck.Proofs.Nesting

/-! Loop directives read back. The decimal digits of a number and the words of the options are
lexemes that a closing parenthesis or a blank ends, so every option of a printed directive is read
as the attribute that its hint stands for; lines of directives are read one after another as long as
no other specifier follows. -/

namespace AttrCheck

theorem head?_toDigits {n : Nat} (h : 0 < n) : ∀ c ∈ (Nat.toDigits 10 n).head?, c ≠ '0' := by
  induction n using Nat.strongRecOn with
  | ind n ih =>
    by_cases hlt : n < 10
    · have hdigit : ∀ m < 10, 0 < m → Nat.digitChar m ≠ '0' := by decide
      rw [Nat.toDigits_of_lt_base hlt]
      rintro c ⟨⟩
      exact hdigit n hlt h
    · rw [Nat.toDigits_of_base_le (by decide) (by omega),
        List.head?_append_of_ne_nil _ Nat.toDigits_ne_nil]
      exact ih (n / 10) (by omega) (by omega)

theorem isDigit_of_mem_toDigits {n : Nat} {c : Char} (h : c ∈ Nat.toDigits 10 n) : c.isDigit :=
  Nat.isDigit_of_mem_toDigits (by decide) (by decide) h

theorem not_isNameStart_of_isDigit {c : Char} (h : c.isDigit) : isNameStart c = false := by
  by_contra hs
  simp only [isNameStart, Bool.not_eq_false, Bool.or_eq_true, decide_eq_true_eq] at hs
  obtain hs | rfl := hs
  · delta Char.isAlpha Char.isUpper Char.isLower at hs
    delta Char.isDigit at h
    simp only [Bool.or_eq_true, Bool.and_eq_true, decide_eq_true_eq, ge_iff_le,
      UInt32.le_iff_toNat_le] at h hs
    change 48 ≤ c.toNat ∧ c.toNat ≤ 57 at h
    change (65 ≤ c.toNat ∧ c.toNat ≤ 90) ∨ 97 ≤ c.toNat ∧ c.toNat ≤ 122 at hs
    omega
  · cases h

theorem not_isSuffixChar_of_isDigit {c : Char} (h : c.isDigit) : isSuffixChar c = false := by
  by_contra hs
  simp only [isSuffixChar, Bool.not_eq_false, Bool.or_eq_true, decide_eq_true_eq] at hs
  obtain ((rfl | rfl) | rfl) | rfl := hs <;> cases h

theorem ofDigits_toDigits {base : Nat} (hone : 1 < base) (hbase : base ≤ 16) (n : Nat) :
    ofDigits base (Nat.toDigits base n) = n := by
  have hvalue : ∀ v < 16, hexValue v.digitChar = v := by decide
  induction n using Nat.strongRecOn with
  | ind n ih =>
    by_cases hlt : n < base
    · rw [Nat.toDigits_of_lt_base hlt]
      show base * 0 + hexValue n.digitChar = n
      rw [hvalue n (hlt.trans_le hbase), Nat.mul_zero, Nat.zero_add]
    · have hdiv := Nat.div_lt_self (show 0 < n by omega) hone
      have hmod := Nat.mod_lt n (show 0 < base by omega)
      rw [Nat.toDigits_of_base_le hone (Nat.le_of_not_lt hlt), ofDigits_append_singleton,
        ih (n / base) hdiv, hvalue (n % base) (hmod.trans_le hbase), Nat.div_add_mod]

theorem wordNumber?_toDigits {n : Nat} (h : 0 < n) :
    wordNumber? (Nat.toDigits 10 n) = some n := by
  have hending : wordNumber? (Nat.toDigits 10 n ++ "".toList) = bareNumber? (Nat.toDigits 10 n) :=
    wordNumber?_append (fun c hc => not_isSuffixChar_of_isDigit (isDigit_of_mem_toDigits hc))
      (by decide)
  have hdigits : (!(Nat.toDigits 10 n).isEmpty && (Nat.toDigits 10 n).all Char.isDigit) = true := by
    simpa using fun c hc => isDigit_of_mem_toDigits hc
  rw [String.toList_empty, List.append_nil] at hending
  rw [hending, bareNumber?_nonzero (head?_toDigits h), if_pos hdigits,
    ofDigits_toDigits (by decide) (by decide)]

def IsName (s : String) : Prop :=
  (∃ c ∈ s.toList.head?, isNameStart c) ∧ (∀ c ∈ s.toList, isNamePart c) ∧
    reservedWords.contains s = false

instance (s : String) : Decidable (IsName s) := inferInstanceAs (Decidable (_ ∧ _ ∧ _))

theorem isNamePart_of_isDigit {c : Char} (h : c.isDigit) : isNamePart c := by
  simp [isNamePart, Char.isAlphanum, h]

theorem not_opensLayout_of_isNamePart {c : Char} (h : isNamePart c) : ¬ OpensLayout c := by
  intro hc
  have hword := hc.not_isWord
  rw [isWord_of_isNamePart h] at hword
  cases hword

namespace Parser

theorem firstOf_of_none {α : Type} {p : Parser α} {c : Cursor} (h : p c = none)
    (ps : List (Parser α)) : firstOf (p :: ps) c = firstOf ps c := choice_of_none h _

theorem firstOf_of_some {α : Type} {p : Parser α} {c : Cursor} {x : α × Cursor}
    (h : p c = some x) (ps : List (Parser α)) : firstOf (p :: ps) c = some x := choice_of_some h _

theorem orElse_of_some {α : Type} {p : Parser α} {c : Cursor} {x : α × Cursor} (h : p c = some x)
    (a : α) : Parser.orElse p a c = some x := firstOf_of_some h [pure a]

theorem orElse_of_none {α : Type} {p : Parser α} {c : Cursor} (h : p c = none) (a : α) :
    Parser.orElse p a c = some (a, c) := firstOf_of_none h [pure a]

theorem expr_of_primary {n : Nat} {l l' : Loc} {cs r : List Char} {e : Expr}
    (hfront : frontOp ⟨l, cs⟩ = none)
    (h : primary (expr n) ⟨l, cs⟩ = some (e, ⟨l', ')' :: r⟩)) :
    expr (n + 1) ⟨l, cs⟩ = some (e, ⟨l', ')' :: r⟩) := by
  have hfronts : (do
        let start ← here
        let op ← frontOp
        layout
        return (op, start) : Parser _) ⟨l, cs⟩ = none := by
    rw [bind_here_apply]
    exact bind_of_eq_none hfront _
  have hunary : unary (n + 1) (expr n) ⟨l, cs⟩ = some (e, ⟨l', ')' :: r⟩) := by
    have hpostfix : postfixExpr (n + 1) (expr n) ⟨l, cs⟩ = some (e, ⟨l', ')' :: r⟩) := by
      rw [postfixExpr, bind_here_apply, bind_of_eq_some h]
      rfl
    rw [unary, bind_of_eq_some (many_of_none hfronts _), bind_of_eq_some hpostfix]
    rfl
  show exprWith (n + 1) (expr n) ⟨l, cs⟩ = _
  rw [exprWith, bind_here_apply, bind_of_eq_some hunary]
  rfl

theorem symbol_append (s : String) (l : Loc) (r : List Char) :
    symbol s ⟨l, s.toList ++ r⟩ = some ((), ⟨l.after s.toList, r⟩) := by
  have hsplit : s.toList.isPrefixOf? (s.toList ++ r) = some r := by
    induction s.toList with
    | nil => rfl
    | cons c cs ih => simp [List.isPrefixOf?, ih]
  simp only [symbol, lexeme, hsplit, Option.map_some]
  rfl

theorem run_append {f : Char → Bool} {t r : List Char} (ht : ∀ c ∈ t, f c)
    (hr : ∀ c ∈ r.head?, f c = false) (l : Loc) :
    run f ⟨l, t ++ r⟩ = some (t, ⟨l.after t, r⟩) := by
  have htake : r.takeWhile f = [] ∧ r.dropWhile f = r := by
    cases r with
    | nil => exact ⟨rfl, rfl⟩
    | cons c cs =>
      have hc : ¬ f c = true := by simp [hr c rfl]
      exact ⟨List.takeWhile_cons_of_neg hc, List.dropWhile_cons_of_neg hc⟩
  simp only [run, lexeme, List.takeWhile_append_of_pos ht, List.dropWhile_append_of_pos ht, htake,
    List.append_nil, Option.map_some]
  rfl

theorem symbol_eq_none {s : String} {l : Loc} {c : Char} {cs : List Char}
    (h : ∃ d ∈ s.toList.head?, d ≠ c) : symbol s ⟨l, c :: cs⟩ = none := by
  obtain ⟨d, hd, hne⟩ := h
  obtain ⟨ds, hds⟩ := List.head?_eq_some_iff.mp hd
  have hbeq : (d == c) = false := by simpa using hne
  simp [symbol, lexeme, hds, List.isPrefixOf?, hbeq]

theorem keyword_append (s : String) (l : Loc) {r : List Char}
    (hr : ∀ c ∈ r.head?, Text.isWord c = false) :
    keyword s ⟨l, s.toList ++ r⟩ = some ((), ⟨l.after s.toList, r⟩) := by
  rw [keyword, bind_of_eq_some (symbol_append s l r)]
  cases r with
  | nil => rfl
  | cons c cs => simp [notBefore, hr c rfl]

theorem name_append {s : String} (hs : IsName s) (l : Loc) {r : List Char}
    (hr : ∀ c ∈ r.head?, Text.isWord c = false) :
    name ⟨l, s.toList ++ r⟩ = some (s, ⟨l.after s.toList, r⟩) := by
  obtain ⟨⟨c, hc, hstart⟩, hpart, hfree⟩ := hs
  have hword : frontWord (s.toList ++ r) = s.toList :=
    frontWord_append (fun d hd => isWord_of_isNamePart (hpart d hd)) hr
  have hend : ∀ d ∈ r.head?, isNamePart d = false := fun d hd => by
    by_contra hname
    exact absurd (isWord_of_isNamePart (by simpa using hname)) (by simp [hr d hd])
  have hrest : (s.toList ++ r).takeWhile isNamePart = s.toList ∧
      (s.toList ++ r).dropWhile isNamePart = r := by
    rw [List.takeWhile_append_of_pos hpart, List.dropWhile_append_of_pos hpart]
    cases r with
    | nil => exact ⟨List.append_nil _, rfl⟩
    | cons d ds =>
      have hd : ¬ isNamePart d = true := by simp [hend d rfl]
      rw [List.takeWhile_cons_of_neg hd, List.dropWhile_cons_of_neg hd, List.append_nil]
      exact ⟨rfl, rfl⟩
  have hsplit : splitName (s.toList ++ r) = some (s, s.toList, r) := by
    obtain ⟨cs, hcs⟩ := List.head?_eq_some_iff.mp hc
    unfold splitName
    rw [isReserved, hword, String.ofList_toList, hrest.1, hrest.2, hfree]
    rw [hcs, List.cons_append]
    simp [hstart, ← hcs]
  simp only [name, lexeme, hsplit, Option.map_some]
  rfl

theorem spaced_of_head {α : Type} {p : Parser α} {l : Loc} {cs : List Char}
    (h : ∃ c ∈ cs.head?, ¬ OpensLayout c) : spaced p ⟨l, cs⟩ = p ⟨l, cs⟩ := by
  obtain ⟨c, hc, hopens⟩ := h
  obtain ⟨cs, rfl⟩ := List.head?_eq_some_iff.mp hc
  exact bind_of_eq_some (congrArg (fun c => some ((), c)) (skipLayout_stop hopens l cs))

theorem number_toDigits {n : Nat} (hn : 0 < n) (l : Loc) (r : List Char) :
    number ⟨l, Nat.toDigits 10 n ++ ')' :: r⟩ =
      some ((n, String.ofList (Nat.toDigits 10 n)), ⟨l.after (Nat.toDigits 10 n), ')' :: r⟩) := by
  have hword : ∀ c ∈ Nat.toDigits 10 n, Text.isWord c := fun c hc =>
    isWord_of_isNamePart (isNamePart_of_isDigit (isDigit_of_mem_toDigits hc))
  have hfront : frontWord (Nat.toDigits 10 n ++ ')' :: r) = Nat.toDigits 10 n :=
    frontWord_append hword (by rintro c ⟨⟩; decide)
  have hrest : (Nat.toDigits 10 n ++ ')' :: r).dropWhile Text.isWord = ')' :: r := by
    rw [List.dropWhile_append_of_pos hword]
    rfl
  simp only [number, lexeme, splitNumber, hfront, wordNumber?_toDigits hn, hrest, Option.map_some]
  rfl

theorem frontOp_eq_none {c : Cursor} (h : ∃ d ∈ c.rest.head?, isNamePart d) : frontOp c = none := by
  cases hop : frontOp c with
  | none => rfl
  | some x =>
    obtain ⟨d, hd, hpart⟩ := h
    have hfront := begins_frontOp c x.1 x.2 hop
    have hall : ∀ w ∈ frontOpFronts, ∀ d ∈ w.toList.head?, isNamePart d = false := by decide
    have hd' : d ∈ (front c.rest).toList.head? := (head?_front c.rest).symm ▸ hd
    rw [hall _ hfront d hd'] at hpart
    cases hpart

theorem primary_of_number {inner : Parser Expr} {c c' : Cursor} {n : Nat} {t : String}
    (h : number c = some ((n, t), c')) : primary inner c = some (.int n t c.loc, c') := by
  rw [primary, bind_here_apply]
  exact firstOf_of_some (bind_of_eq_some h) _

theorem primary_of_name {inner : Parser Expr} {c c' : Cursor} {s : String}
    (h : name c = some (s, c')) : primary inner c = some (.name s .runtime c.loc, c') := by
  have hother {α : Type} {q : Parser α} {K : String → Prop} (hq : Begins q K)
      (hK : ∀ w, K w → (∃ d ∈ w.toList.head?, isNameStart d = false) ∨ reservedWords.contains w) :
      q c = none := by
    refine begins_name.eq_none hq (fun w hname hw => ?_) h
    obtain ⟨⟨d, hd, hstart⟩, hfree⟩ := hname
    obtain ⟨e, he, hnot⟩ | hreserved := hK w hw
    · obtain rfl := Option.some.inj (hd.symm.trans he)
      rw [hstart] at hnot
      cases hnot
    · rw [hfree] at hreserved
      cases hreserved
  have hnumber : number c = none := hother begins_number fun w ⟨d, hd, hdigit⟩ =>
    .inl ⟨d, hd, not_isNameStart_of_isDigit hdigit⟩
  have hstring : stringLiteral c = none := hother begins_stringLiteral fun w hw => by
    rw [hw]
    decide
  have hbool : boolWord c = none := by
    have hword (s : String) (hs : IsWhole s) (hmem : s ∈ ["true", "false"]) :
        Begins (theWord s) (· ∈ ["true", "false"]) := (begins_theWord hs).mono fun _ h => h ▸ hmem
    refine hother (K := (· ∈ ["true", "false"])) (.orElse (hword "true" (by decide) (by decide)).bind
      (.orElse (hword "false" (by decide) (by decide)).bind begins_failure)) fun w hw => .inr ?_
    have hall : ∀ w ∈ ["true", "false"], reservedWords.contains w := by decide
    exact hall w hw
  have hparens : parens inner c = none := hother (begins_symbol (s := "(") (by decide)).bind
    fun w hw => by
      rw [hw]
      decide
  rw [primary, bind_here_apply, firstOf_of_none (bind_of_eq_none hnumber _),
    firstOf_of_none (bind_of_eq_none hstring _), firstOf_of_none (bind_of_eq_none hbool _),
    firstOf_of_none (bind_of_eq_none hparens _)]
  exact firstOf_of_some (bind_of_eq_some h) _

end Parser

namespace LoopHint

variable (h : LoopHint)

def valueExpr (l : Loc) : Expr :=
  match h.option.optionClass with
  | .boolean => .name h.valueText .runtime l
  | .numeric => .int h.value h.valueText l

def written (l : Loc) : RawAttr :=
  let value := l.after (h.option.text ++ "(").toList
  .ofLoopOption ⟨l, l.after h.optionText.toList⟩ h.option.text (some (h.valueExpr value))
    (value.after h.valueText.toList)

end LoopHint

theorem HintOption.isName_text (o : HintOption) : IsName o.text := by
  cases o <;> decide

theorem isName_switchText (on : Bool) : IsName (switchText on) := by
  cases on <;> decide

theorem LoopHint.valueText_boolean {h : LoopHint} (hc : h.option.optionClass = .boolean) :
    h.valueText = switchText (h.value ≠ 0) := by
  simp only [valueText, hc]

theorem LoopHint.valueText_numeric {h : LoopHint} (hc : h.option.optionClass = .numeric) {n : Nat}
    (hn : h.value = n) : h.valueText = String.ofList (Nat.toDigits 10 n) := by
  simp only [valueText, hc, hn]
  exact Nat.toString_eq_ofList_toDigits

namespace Parser

variable {h : LoopHint} (hr : h.InRange)
include hr

theorem expr_valueText (k : Nat) (l : Loc) (r : List Char) :
    expr (k + 1) ⟨l, h.valueText.toList ++ ')' :: r⟩ =
      some (h.valueExpr l, ⟨l.after h.valueText.toList, ')' :: r⟩) ∧
    ∃ c ∈ h.valueText.toList.head?, isNamePart c := by
  unfold LoopHint.InRange at hr
  cases hclass : h.option.optionClass with
  | boolean =>
    have hname := isName_switchText (h.value ≠ 0)
    have hread := name_append hname l (r := ')' :: r) (by rintro c ⟨⟩; decide)
    obtain ⟨⟨c, hc, hstart⟩, _⟩ := hname
    rw [← LoopHint.valueText_boolean hclass] at hread hc
    have hpart := isNamePart_of_isNameStart hstart
    refine ⟨?_, c, hc, hpart⟩
    have hvalue : h.valueExpr l = .name h.valueText .runtime l := by
      simp only [LoopHint.valueExpr, hclass]
    rw [hvalue]
    refine expr_of_primary (frontOp_eq_none ⟨c, ?_, hpart⟩) (primary_of_name hread)
    rw [List.head?_append, hc]
    rfl
  | numeric =>
    simp only [hclass] at hr
    obtain ⟨n, hn⟩ := Int.eq_ofNat_of_zero_le (Int.le_trans (by decide) hr.1)
    have htext := LoopHint.valueText_numeric hclass hn
    have hdigits : h.valueText.toList = Nat.toDigits 10 n := by rw [htext, String.toList_ofList]
    have hread := number_toDigits (n := n) (by omega) l r
    rw [← htext, ← hdigits] at hread
    obtain ⟨c, cs, hcs⟩ := List.exists_cons_of_ne_nil (Nat.toDigits_ne_nil (b := 10) (n := n))
    have hc : c ∈ h.valueText.toList.head? := by rw [hdigits, hcs]; rfl
    have hmem : c ∈ Nat.toDigits 10 n := hcs ▸ List.mem_cons_self
    have hpart := isNamePart_of_isDigit (isDigit_of_mem_toDigits hmem)
    refine ⟨?_, c, hc, hpart⟩
    have hvalue : h.valueExpr l = .int n h.valueText l := by
      simp only [LoopHint.valueExpr, hclass, hn]
    rw [hvalue]
    refine expr_of_primary (frontOp_eq_none ⟨c, ?_, hpart⟩) (primary_of_number hread)
    rw [List.head?_append, hc]
    rfl

theorem loopOption_optionText (k : Nat) (l : Loc) (r : List Char) :
    loopOption (expr (k + 1)) ⟨l, ' ' :: h.optionText.toList ++ r⟩ =
      some (h.written (l.next ' '), ⟨l.after (' ' :: h.optionText.toList), r⟩) := by
  have htext : ' ' :: h.optionText.toList ++ r = [' '] ++
      (h.option.text.toList ++ ([] ++ ("(".toList ++ (h.valueText.toList ++ ')' :: r)))) := by
    simp [LoopHint.optionText]
  have hblank : ∀ c ∈ (h.option.text.toList ++
      ([] ++ ("(".toList ++ (h.valueText.toList ++ ')' :: r)))).head?,
      Text.isInlineBlank c = false := by
    obtain ⟨⟨d, hd, hstart⟩, _⟩ := h.option.isName_text
    rw [List.head?_append, hd]
    rintro c ⟨⟩
    by_contra hc
    have hb := Text.not_isWord_of_isBlank (Text.isBlank_of_isInlineBlank (by simpa using hc))
    rw [isWord_of_isNamePart (isNamePart_of_isNameStart hstart)] at hb
    cases hb
  rw [htext, loopOption, bind_of_eq_some (run_append (by decide) hblank l), bind_here_apply,
    bind_of_eq_some (name_append h.option.isName_text _ (by rintro c ⟨⟩; decide)),
    bind_of_eq_some (run_append (t := []) (by decide) (by rintro c ⟨⟩; decide) _),
    bind_of_eq_some (symbol_append "(" _ _)]
  obtain ⟨hvalue, c, hc, hpart⟩ := expr_valueText hr k
    ((((l.after [' ']).after h.option.text.toList).after []).after "(".toList) r
  have hhead : ∃ c ∈ (h.valueText.toList ++ ')' :: r).head?, ¬ OpensLayout c :=
    ⟨c, by rw [List.head?_append, hc]; rfl, not_opensLayout_of_isNamePart hpart⟩
  rw [bind_of_eq_some ((spaced_of_head hhead).trans (maybe_of_some hvalue))]
  have hlayout (l' : Loc) : layout ⟨l', ')' :: r⟩ = some ((), ⟨l', ')' :: r⟩) :=
    congrArg (fun c => some ((), c)) (skipLayout_stop (by decide) l' r)
  have hclose (l' : Loc) : symbol ")" ⟨l', ')' :: r⟩ = some ((), ⟨l'.next ')', r⟩) :=
    symbol_append ")" l' r
  rw [bind_of_eq_some (hlayout _), bind_here_apply, bind_of_eq_some (hclose _), bind_here_apply]
  simp [LoopHint.written, LoopHint.optionText, Loc.after_append]
  rfl

end Parser

namespace LoopHint

def itemText (h : LoopHint) : String := " " ++ h.optionText

def directiveText (hs : List LoopHint) : String :=
  "#pragma clang loop" ++ String.join (hs.map itemText) ++ "\n"

def itemChars (hs : List LoopHint) : List Char := hs.flatMap fun h => ' ' :: h.optionText.toList

theorem itemChars_cons (h : LoopHint) (hs : List LoopHint) :
    itemChars (h :: hs) = ' ' :: h.optionText.toList ++ itemChars hs := List.flatMap_cons

theorem toList_itemText (h : LoopHint) : h.itemText.toList = ' ' :: h.optionText.toList := by
  rw [itemText, String.toList_append]
  rfl

theorem toList_directiveText (hs : List LoopHint) :
    (directiveText hs).toList = "#pragma clang loop".toList ++ (itemChars hs ++ ['\n']) := by
  have hitems : (String.join (hs.map itemText)).toList = itemChars hs := by
    rw [String.toList_join, List.flatMap_map]
    exact congrArg hs.flatMap (funext toList_itemText)
  -- The parts are named so that no rewriting looks into their letters.
  have hparts (first items last : String) : (first ++ items ++ last).toList =
      first.toList ++ (items.toList ++ last.toList) := by
    rw [String.toList_append, String.toList_append, List.append_assoc]
  exact (hparts _ _ _).trans (congrArg (fun items => _ ++ (items ++ _)) hitems)

def Writes (h : LoopHint) (a : RawAttr) : Prop := ∃ l, a = h.written l

end LoopHint

namespace Parser

open LoopHint

theorem many_loopOption {hs : List LoopHint} (hr : ∀ h ∈ hs, h.InRange) (k : Nat) {n : Nat}
    (hn : hs.length ≤ n) (l : Loc) (r : List Char) : ∃ as,
      many (loopOption (expr (k + 1))) n ⟨l, itemChars hs ++ '\n' :: r⟩ =
        some (as, ⟨l.after (itemChars hs), '\n' :: r⟩) ∧ List.Forall₂ Writes hs as := by
  induction hs generalizing n l with
  | nil => exact ⟨[], many_of_none rfl n, .nil⟩
  | cons h hs ih =>
    obtain ⟨n, rfl⟩ := Nat.exists_eq_add_of_le' (Nat.le_trans (Nat.le_add_left 1 _) hn)
    have hfirst := loopOption_optionText (hr h (.head _)) k l (itemChars hs ++ '\n' :: r)
    obtain ⟨as, hmore, has⟩ := ih (fun h' hh' => hr h' (.tail _ hh')) (Nat.le_of_succ_le_succ hn)
      (l.after (' ' :: h.optionText.toList))
    refine ⟨h.written (l.next ' ') :: as, ?_, .cons ⟨_, rfl⟩ has⟩
    rw [itemChars_cons, List.append_assoc, Loc.after_append]
    exact many_of_some hfirst hmore

theorem skipLayout_directive {l : Loc} {cs : List Char} (h : atLoopDirective ⟨l, '#' :: cs⟩) :
    skipLayout .code l ('#' :: cs) = ⟨l, '#' :: cs⟩ := by
  have hblank : Text.isBlank '#' = false := by decide
  simp [skipLayout, hblank, h]

theorem loopDirective_append (l : Loc) {r : List Char}
    (hr : ∀ c ∈ r.head?, Text.isWord c = false) :
    loopDirective ⟨l, "#pragma clang loop".toList ++ r⟩ =
      some ((), ⟨l.after "#pragma clang loop".toList, r⟩) := by
  have htext : "#pragma clang loop".toList = "#".toList ++ ([] ++ ("pragma".toList ++
      ([' '] ++ ("clang".toList ++ ([' '] ++ "loop".toList))))) := by decide
  have hblank {s : List Char} (hs : ∀ c ∈ s.head?, Text.isInlineBlank c = false) (l : Loc) :
      run₁ Text.isInlineBlank ⟨l, [' '] ++ s⟩ = some ([' '], ⟨l.after [' '], s⟩) := by
    rw [run₁, bind_of_eq_some (run_append (by decide) hs l)]
    rfl
  rw [htext]
  simp only [List.append_assoc, Loc.after_append]
  rw [loopDirective, bind_of_eq_some (symbol_append _ _ _),
    bind_of_eq_some (run_append (by decide) (by rintro c ⟨⟩; decide) _),
    bind_of_eq_some (symbol_append _ _ _), bind_of_eq_some (hblank (by rintro c ⟨⟩; decide) _),
    bind_of_eq_some (symbol_append _ _ _), bind_of_eq_some (hblank (by rintro c ⟨⟩; decide) _),
    keyword_append _ _ hr]

variable {hs : List LoopHint} (hne : hs ≠ []) (hr : ∀ h ∈ hs, h.InRange)
include hne

theorem exists_directiveText (r : List Char) : ∃ s, (directiveText hs).toList ++ r =
    "#pragma clang loop".toList ++ s ∧ ∀ c ∈ s.head?, Text.isWord c = false := by
  obtain ⟨h, hs, rfl⟩ := List.exists_cons_of_ne_nil hne
  refine ⟨' ' :: h.optionText.toList ++ (itemChars hs ++ ['\n'] ++ r), ?_, by rintro c ⟨⟩; decide⟩
  rw [toList_directiveText, itemChars_cons]
  simp only [List.append_assoc]

theorem layout_directiveText (l : Loc) (r : List Char) :
    layout ⟨l, (directiveText hs).toList ++ r⟩ =
      some ((), ⟨l, (directiveText hs).toList ++ r⟩) := by
  obtain ⟨s, hs, hword⟩ := exists_directiveText hne r
  have hat : atLoopDirective ⟨l, "#pragma clang loop".toList ++ s⟩ = true := by
    rw [atLoopDirective, loopDirective_append l hword]
    rfl
  have hhead : "#pragma clang loop".toList = '#' :: "pragma clang loop".toList := by decide
  rw [hs]
  rw [hhead] at hat ⊢
  exact congrArg (fun c => some ((), c)) (skipLayout_directive hat)

include hr

theorem loopSpecifier_directiveText (k : Nat) {n : Nat} (hn : hs.length ≤ n) (l : Loc)
    (r : List Char) : ∃ spec,
      loopSpecifier n (expr (k + 1)) ⟨l, (directiveText hs).toList ++ r⟩ =
        some (spec, ⟨l.after (directiveText hs).toList, r⟩) ∧
      List.Forall₂ Writes hs spec.attrs := by
  obtain ⟨h, hs, rfl⟩ := List.exists_cons_of_ne_nil hne
  let behind := l.after "#pragma clang loop".toList
  have hfirst := loopOption_optionText (hr h (.head _)) k behind (itemChars hs ++ '\n' :: r)
  obtain ⟨as, hmore, has⟩ := many_loopOption (fun h' hh' => hr h' (.tail _ hh')) k
    (Nat.le_of_succ_le hn) (behind.after (' ' :: h.optionText.toList)) r
  have htext : (directiveText (h :: hs)).toList ++ r = "#pragma clang loop".toList ++
      (' ' :: h.optionText.toList ++ (itemChars hs ++ '\n' :: r)) := by
    rw [toList_directiveText, itemChars_cons]
    simp only [List.append_assoc, List.singleton_append]
  have hblank (l : Loc) : run Text.isInlineBlank ⟨l, '\n' :: r⟩ = some ([], ⟨l, '\n' :: r⟩) := rfl
  have hend (l : Loc) : lineEnd ⟨l, '\n' :: r⟩ = some ((), ⟨l.next '\n', r⟩) := rfl
  let first := h.written (behind.next ' ')
  refine ⟨⟨first :: as, ⟨l, (as.getLastD first).range.stop⟩⟩, ?_, .cons ⟨_, rfl⟩ has⟩
  rw [htext, loopSpecifier, bind_here_apply,
    bind_of_eq_some (loopDirective_append l (by rintro c ⟨⟩; decide)), bind_of_eq_some hfirst,
    bind_of_eq_some hmore, bind_of_eq_some (hblank _), bind_of_eq_some (hend _),
    toList_directiveText, itemChars_cons]
  simp only [Loc.after_append]
  rfl

end Parser

namespace LoopHint

def directiveLines (groups : List (List LoopHint)) : String :=
  String.join (groups.map directiveText)

def lineChars (groups : List (List LoopHint)) : List Char :=
  groups.flatMap fun g => (directiveText g).toList

theorem toList_directiveLines (groups : List (List LoopHint)) :
    (directiveLines groups).toList = lineChars groups := by
  rw [directiveLines, String.toList_join, List.flatMap_map]
  rfl

theorem length_le_itemChars (hs : List LoopHint) : hs.length ≤ (itemChars hs).length := by
  induction hs with
  | nil => exact Nat.le_refl _
  | cons h hs ih =>
    rw [itemChars_cons, List.length_append, List.length_cons, List.length_cons]
    omega

theorem length_lt_directiveText (hs : List LoopHint) :
    hs.length < (directiveText hs).toList.length := by
  have hle := length_le_itemChars hs
  rw [toList_directiveText, List.length_append, List.length_append, List.length_singleton]
  omega

theorem length_le_lineChars (groups : List (List LoopHint)) :
    groups.length ≤ (lineChars groups).length ∧
      ∀ g ∈ groups, g.length ≤ (lineChars groups).length := by
  induction groups with
  | nil => exact ⟨Nat.le_refl _, nofun⟩
  | cons g groups ih =>
    have hlt := length_lt_directiveText g
    have hcons : (lineChars (g :: groups)).length =
        (directiveText g).toList.length + (lineChars groups).length := by
      rw [lineChars, List.flatMap_cons, List.length_append]
      rfl
    rw [hcons, List.length_cons]
    refine ⟨by omega, fun g' hg' => ?_⟩
    obtain rfl | hg' := List.mem_cons.mp hg'
    · omega
    · have hle := ih.2 g' hg'
      omega

end LoopHint

namespace Parser

open LoopHint

section Groups

variable {groups : List (List LoopHint)} (hgroup : ∀ g ∈ groups, g ≠ [])
  (hr : ∀ g ∈ groups, ∀ h ∈ g, h.InRange) (k : Nat) {n : Nat} (hn : ∀ g ∈ groups, g.length ≤ n)
  {r : List Char} (hend : ∀ l, spaced (anySpecifier n (expr (k + 1))) ⟨l, r⟩ = none)
include hgroup hr hn hend

theorem many_directives {m : Nat} (hm : groups.length ≤ m) (l : Loc) : ∃ specs,
    many (spaced (anySpecifier n (expr (k + 1)))) m ⟨l, lineChars groups ++ r⟩ =
      some (specs, ⟨l.after (lineChars groups), r⟩) ∧
    List.Forall₂ Writes groups.flatten (specs.flatMap Specifier.attrs) := by
  induction groups generalizing m l with
  | nil => exact ⟨[], many_of_none (hend l) m, .nil⟩
  | cons g groups ih =>
    obtain ⟨m, rfl⟩ := Nat.exists_eq_add_of_le' (Nat.le_trans (Nat.le_add_left 1 _) hm)
    have hne := hgroup g (.head _)
    obtain ⟨spec, hspec, hattrs⟩ := loopSpecifier_directiveText hne (hr g (.head _)) k
      (hn g (.head _)) l (lineChars groups ++ r)
    obtain ⟨specs, hmore, hrest⟩ := ih (fun g' hg' => hgroup g' (.tail _ hg'))
      (fun g' hg' => hr g' (.tail _ hg')) (fun g' hg' => hn g' (.tail _ hg'))
      (Nat.le_of_succ_le_succ hm) (l.after (directiveText g).toList)
    have hchars : lineChars (g :: groups) = (directiveText g).toList ++ lineChars groups :=
      List.flatMap_cons
    have hform : ((· = "#"), loopSpecifier n (expr (k + 1))) ∈ specifierForms n (expr (k + 1)) :=
      .tail _ (.tail _ (.tail _ (.head _)))
    refine ⟨spec :: specs, ?_, List.rel_append hattrs hrest⟩
    rw [hchars, List.append_assoc, Loc.after_append]
    exact many_of_some ((bind_of_eq_some (layout_directiveText hne _ _)).trans
      (anySpecifier_eq_some hform hspec)) hmore

theorem specifiers_directives (hne : groups ≠ []) (hm : groups.length ≤ n) (l : Loc) : ∃ spec,
    specifiers n (expr (k + 1)) ⟨l, lineChars groups ++ r⟩ =
      some (spec, ⟨l.after (lineChars groups), r⟩) ∧
    List.Forall₂ Writes groups.flatten spec.attrs := by
  obtain ⟨g, groups, rfl⟩ := List.exists_cons_of_ne_nil hne
  obtain ⟨spec, hspec, hattrs⟩ := loopSpecifier_directiveText (hgroup g (.head _)) (hr g (.head _)) k
    (hn g (.head _)) l (lineChars groups ++ r)
  obtain ⟨specs, hmore, hrest⟩ := many_directives (fun g' hg' => hgroup g' (.tail _ hg'))
    (fun g' hg' => hr g' (.tail _ hg')) k (fun g' hg' => hn g' (.tail _ hg')) hend
    (Nat.le_of_succ_le hm) (l.after (directiveText g).toList)
  have hchars : lineChars (g :: groups) = (directiveText g).toList ++ lineChars groups :=
    List.flatMap_cons
  have hform : ((· = "#"), loopSpecifier n (expr (k + 1))) ∈ specifierForms n (expr (k + 1)) :=
    .tail _ (.tail _ (.tail _ (.head _)))
  refine ⟨⟨spec.attrs ++ specs.flatMap Specifier.attrs,
    ⟨spec.range.start, (specs.getLastD spec).range.stop⟩⟩, ?_, List.rel_append hattrs hrest⟩
  rw [hchars, List.append_assoc, Loc.after_append, specifiers,
    bind_of_eq_some (anySpecifier_eq_some hform hspec), bind_of_eq_some hmore]
  rfl

end Groups

end Parser

end AttrCheck
