import Mathlib.Data.List.TakeWhile
import AttrCheck.Proofs.TokenReading

/-! Operands read off tokens: literals, names and parentheses, with the operators in front of them.
What stands in front of an expression tells whether an operator does. -/

namespace AttrCheck

theorem isNamePart_of_isHexDigit {c : Char} (h : isHexDigit c) : isNamePart c := by
  simp only [isHexDigit, Bool.or_eq_true, Bool.and_eq_true, decide_eq_true_eq] at h
  obtain (h | ⟨h₁, h₂⟩) | ⟨h₁, h₂⟩ := h
  · exact isNamePart_of_isDigit h
  · have hlower : c.isLower = true := by
      delta Char.isLower
      simp only [Bool.and_eq_true, decide_eq_true_eq]
      exact ⟨h₁, Char.le_trans h₂ (by decide)⟩
    have halpha : c.isAlpha = true := by
      delta Char.isAlpha
      simp [hlower]
    simp [isNamePart, Char.isAlphanum, halpha]
  · have hupper : c.isUpper = true := by
      delta Char.isUpper
      simp only [decide_eq_true_eq]
      exact ⟨h₁, Char.le_trans h₂ (by decide)⟩
    have halpha : c.isAlpha = true := by
      delta Char.isAlpha
      simp [hupper]
    simp [isNamePart, Char.isAlphanum, halpha]

theorem isDigit_of_isOctalDigit {c : Char} (h : isOctalDigit c) : c.isDigit := by
  simp only [isOctalDigit, Bool.and_eq_true, decide_eq_true_eq] at h
  simp only [Char.isDigit, Bool.and_eq_true, decide_eq_true_eq]
  exact ⟨h.1, Char.le_trans h.2 (by decide)⟩

theorem isHexDigit_of_isOctalDigit {c : Char} (h : isOctalDigit c) : isHexDigit c := by
  simp [isHexDigit, isDigit_of_isOctalDigit h]

theorem isNamePart_of_bareNumber {cs : List Char} {n : Nat} (h : bareNumber? cs = some n) :
    ∀ c ∈ cs, isNamePart c := by
  have hall {p : Char → Bool} (hp : ∀ c, p c → isNamePart c) {ds : List Char} (hds : ds.all p) :
      ∀ c ∈ ds, isNamePart c := fun c hc => hp c (List.all_eq_true.mp hds c hc)
  have hoctal : ∀ c, isOctalDigit c → isNamePart c := fun c hc =>
    isNamePart_of_isHexDigit (isHexDigit_of_isOctalDigit hc)
  have hbinary : ∀ c, isBinaryDigit c → isNamePart c := by
    intro c hc
    simp only [isBinaryDigit, Bool.or_eq_true, decide_eq_true_eq] at hc
    obtain rfl | rfl := hc <;> decide
  have hdigit : ∀ c, c.isDigit → isNamePart c := fun _ => isNamePart_of_isDigit
  have hhex : ∀ c, isHexDigit c → isNamePart c := fun _ => isNamePart_of_isHexDigit
  have hcons {c : Char} {ds : List Char} (hc : isNamePart c) (hds : ∀ d ∈ ds, isNamePart d) :
      ∀ d ∈ c :: ds, isNamePart d := List.forall_mem_cons.mpr ⟨hc, hds⟩
  unfold bareNumber? at h
  split at h
  · split at h
    all_goals split_ifs at h with hds
    · exact hcons (by decide) (hcons (by decide) (hall hhex (Bool.and_eq_true_iff.mp hds).2))
    · exact hcons (by decide) (hcons (by decide) (hall hhex (Bool.and_eq_true_iff.mp hds).2))
    · exact hcons (by decide) (hcons (by decide) (hall hbinary (Bool.and_eq_true_iff.mp hds).2))
    · exact hcons (by decide) (hcons (by decide) (hall hbinary (Bool.and_eq_true_iff.mp hds).2))
    · exact hcons (by decide) (hall hoctal hds)
  · split_ifs at h with hds
    exact hall hdigit (Bool.and_eq_true_iff.mp hds).2

theorem isNamePart_of_isSuffixChar {c : Char} (h : isSuffixChar c) : isNamePart c := by
  simp only [isSuffixChar, Bool.or_eq_true, decide_eq_true_eq] at h
  obtain ((rfl | rfl) | rfl) | rfl := h <;> decide

theorem isNamePart_of_wordNumber {cs : List Char} {n : Nat} (h : wordNumber? cs = some n) :
    ∀ c ∈ cs, isNamePart c := by
  obtain ⟨bare, ending, hending, rfl, hbare⟩ := exists_ending_of_wordNumber h
  exact List.forall_mem_append.mpr ⟨isNamePart_of_bareNumber hbare, fun c hc =>
    isNamePart_of_isSuffixChar (isSuffixChar_of_mem hending c hc)⟩

namespace Parser

variable {l : Loc} {m : List Char}

theorem number_append {s : String} {n : Nat} (hs : wordNumber? s.toList = some n)
    (hm : ∀ c ∈ m.head?, Text.isWord c = false) :
    number ⟨l, s.toList ++ m⟩ = some ((n, s), ⟨l.after s.toList, m⟩) := by
  have hword : ∀ c ∈ s.toList, Text.isWord c := fun c hc =>
    isWord_of_isNamePart (isNamePart_of_wordNumber hs c hc)
  have hrest : (s.toList ++ m).dropWhile Text.isWord = m := by
    rw [List.dropWhile_append_of_pos hword]
    cases m with
    | nil => rfl
    | cons c cs => exact List.dropWhile_cons_of_neg (by simp [hm c rfl])
  simp only [number, lexeme, splitNumber, frontWord_append hword hm, hs, hrest, Option.map_some,
    String.ofList_toList]
  rfl

theorem stringLiteral_append {s : String} (hs : IsStringBody s) :
    stringLiteral ⟨l, (Token.string s).text.toList ++ m⟩ =
      some (s, ⟨l.after (Token.string s).text.toList, m⟩) := by
  have htext : (Token.string s).text.toList = '"' :: s.toList ++ ['"'] := by simp [Token.text]
  have hbody : splitStringBody (s.toList ++ '"' :: m) = some (s.toList, m) := by
    have happend := splitStringBody_append hs m
    simpa using happend
  rw [htext]
  simp [stringLiteral, lexeme, splitString, hbody, Cursor.behind]

theorem theWord_append (s : String) (hm : ∀ c ∈ m.head?, Text.isWord c = false) :
    theWord s ⟨l, s.toList ++ m⟩ = some (s, ⟨l.after s.toList, m⟩) :=
  bind_of_eq_some (keyword_append s l hm)

theorem begins_boolWord : Begins boolWord (· ∈ ["true", "false"]) := by
  have hword (s : String) (hs : IsWhole s) (hmem : s ∈ ["true", "false"]) :
      Begins (theWord s) (· ∈ ["true", "false"]) := (begins_theWord hs).mono fun _ h => h ▸ hmem
  exact .orElse (hword "true" (by decide) (by decide)).bind
    (.orElse (hword "false" (by decide) (by decide)).bind begins_failure)

section Primary

variable {inner : Parser Expr} {c c' : Cursor}

theorem primary_of_string {s : String} (h : stringLiteral c = some (s, c')) :
    primary inner c = some (.string s c.loc, c') := by
  have hnumber : number c = none := by
    refine begins_stringLiteral.eq_none begins_number (fun w hw => ?_) h
    subst hw
    decide
  rw [primary, bind_here_apply, firstOf_of_none (bind_of_eq_none hnumber _)]
  exact firstOf_of_some (bind_of_eq_some h) _

theorem primary_of_bool {x : Int × String} (h : boolWord c = some (x, c')) :
    primary inner c = some (.int x.1 x.2 c.loc, c') := by
  have hall : ∀ w ∈ ["true", "false"], w ≠ "\"" ∧ ∀ d ∈ w.toList.head?, ¬ d.isDigit := by decide
  have hnumber : number c = none :=
    begins_boolWord.eq_none begins_number
      (fun w hw ⟨d, hd, hdigit⟩ => (hall w hw).2 d hd hdigit) h
  have hstring : stringLiteral c = none :=
    begins_boolWord.eq_none begins_stringLiteral (fun w hw => (hall w hw).1) h
  rw [primary, bind_here_apply, firstOf_of_none (bind_of_eq_none hnumber _),
    firstOf_of_none (bind_of_eq_none hstring _)]
  exact firstOf_of_some (bind_of_eq_some h) _

theorem primary_of_parens {e : Expr} (h : parens inner c = some (e, c')) :
    primary inner c = some (.paren e c.loc, c') := by
  have hparens : Begins (parens inner) (· = "(") := (begins_symbol (s := "(") (by decide)).bind
  have hnumber : number c = none := by
    refine hparens.eq_none begins_number (fun w hw => ?_) h
    subst hw
    decide
  have hstring : stringLiteral c = none := by
    refine hparens.eq_none begins_stringLiteral (fun w hw => ?_) h
    subst hw
    decide
  have hbool : boolWord c = none := by
    refine hparens.eq_none begins_boolWord (fun w hw => ?_) h
    subst hw
    decide
  rw [primary, bind_here_apply, firstOf_of_none (bind_of_eq_none hnumber _),
    firstOf_of_none (bind_of_eq_none hstring _), firstOf_of_none (bind_of_eq_none hbool _)]
  exact firstOf_of_some (bind_of_eq_some h) _

end Primary

end Parser

def openingChars : List Char := ['"', '(', '+', '-', '!', '~']

namespace Parser

def OpensExpr (w : String) : Prop := ∃ c ∈ w.toList.head?, isNamePart c ∨ c ∈ openingChars

theorem OpensOperand.opensExpr {w : String} (h : OpensOperand w) : OpensExpr w := by
  have hmarks : ∀ s ∈ ["\"", "true", "false", "("] ++ frontOpFronts,
      ∃ c ∈ s.toList.head?, isNamePart c ∨ c ∈ openingChars := by
    decide
  obtain ⟨c, hc, hdigit⟩ | ⟨⟨c, hc, hstart⟩, _⟩ | hmem := h
  · exact ⟨c, hc, .inl (isNamePart_of_isDigit hdigit)⟩
  · exact ⟨c, hc, .inl (isNamePart_of_isNameStart hstart)⟩
  · exact hmarks w hmem

theorem refuses_expr {s : String} (hs : ∃ c ∈ s.toList.head?, isNamePart c = false ∧
    c ∉ openingChars) (n : Nat) (l : Loc) (m : List Char) : expr n ⟨l, s.toList ++ m⟩ = none := by
  cases he : expr n ⟨l, s.toList ++ m⟩ with
  | none => rfl
  | some x =>
    obtain ⟨c, hc, hpart, hopening⟩ := hs
    obtain ⟨d, hd, hbegins⟩ := (begins_expr n _ x.1 x.2 he).opensExpr
    rw [head?_front, List.head?_append, hc] at hd
    obtain rfl := Option.some.inj hd
    obtain hbegins | hbegins := hbegins
    · rw [hpart] at hbegins
      cases hbegins
    · exact absurd hbegins hopening

end Parser

def frontTable : List (UnaryOp × List Char) :=
  [(.preInc, []), (.preDec, []), (.minus, ['=']), (.plus, ['=']), (.lnot, ['=']), (.bnot, ['='])]

def openers : List String := ["(", "+", "-", "!", "~", "++", "--"]

namespace Token

variable {t : Token} {ts : List Token} {cs m r : List Char} {op : UnaryOp}

def Opens : Token → Prop
  | word _ | number _ | string _ => True
  | mark s => s ∈ openers
  | _ => False

theorem Opens.exists_head (ht : t.Opens) (hv : t.Valid) : ∃ c ∈ t.text.toList.head?,
    Text.isWord c ∨ c = '"' ∨ ∃ s ∈ openers, t = .mark s ∧ c ∈ s.toList.head? := by
  cases t with
  | word s =>
    obtain ⟨c, cs, hcs⟩ := List.exists_cons_of_ne_nil hv.1
    exact ⟨c, by simp [text, hcs], .inl (hv.2 c (hcs ▸ .head _))⟩
  | number s =>
    obtain ⟨n, hn⟩ := hv
    obtain ⟨c, hc, hdigit⟩ := Parser.head_of_wordNumber hn
    exact ⟨c, hc, .inl (isWord_of_isNamePart (isNamePart_of_isDigit hdigit))⟩
  | string s => exact ⟨'"', by simp [text], .inr (.inl rfl)⟩
  | mark s =>
    have hhead : ∀ s ∈ openers, s.toList.head?.isSome := by decide
    obtain ⟨c, hc⟩ := Option.isSome_iff_exists.mp (hhead s ht)
    exact ⟨c, hc, .inr (.inr ⟨s, ht, rfl, hc⟩)⟩
  | binary | type => exact ht.elim

theorem Opens.ne_equals (ht : t.Opens) (hv : t.Valid) : ∀ c ∈ t.text.toList.head?, c ≠ '=' := by
  obtain ⟨c, hc, hword | rfl | ⟨s, hs, rfl, hmem⟩⟩ := ht.exists_head hv
  · rintro d hd rfl
    obtain rfl := Option.some.inj (hc.symm.trans hd)
    have hequals : Text.isWord '=' = false := by decide
    rw [hequals] at hword
    cases hword
  · rintro d hd rfl
    cases Option.some.inj (hc.symm.trans hd)
  · have hall : ∀ s ∈ openers, ∀ c ∈ s.toList.head?, c ≠ '=' := by decide
    exact hall s hs

theorem frontOp_eq_none (ht : t.Opens) (hm : t.Ends m) (hne : ∀ op : UnaryOp, t ≠ .mark op.symbol)
    (l : Loc) : Parser.frontOp ⟨l, t.text.toList ++ m⟩ = none := by
  obtain ⟨c, hc, hhead⟩ := ht.exists_head hm.valid
  obtain ⟨cs, hcs⟩ := List.head?_eq_some_iff.mp hc
  cases hop : Parser.frontOp ⟨l, t.text.toList ++ m⟩ with
  | none => rfl
  | some x =>
    have hfront := Parser.begins_frontOp _ x.1 x.2 hop
    have hc' : c ∈ (front (t.text.toList ++ m)).toList.head? := by
      rw [head?_front, hcs]
      rfl
    have hall : ∀ w ∈ Parser.frontOpFronts, ∀ d ∈ w.toList.head?,
        Text.isWord d = false ∧ d ≠ '"' ∧ ∀ s ∈ openers, d ∈ s.toList.head? →
          ∃ op ∈ UnaryOp.all, s = op.symbol := by
      decide
    obtain ⟨hword, hquote, hsymbol⟩ := hall _ hfront c hc'
    obtain hw | rfl | ⟨s, hs, rfl, hmem⟩ := hhead
    · rw [hword] at hw
      cases hw
    · exact absurd rfl hquote
    · obtain ⟨op, _, rfl⟩ := hsymbol s hs hmem
      exact absurd rfl (hne op)

theorem postfixOp_eq_some (hop : op.isFront = false) (hm : (mark op.symbol).Ends m) (n : Nat)
    (inner : Parser Expr) (l : Loc) : Parser.postfixOp n inner ⟨l, op.symbol.toList ++ m⟩ =
      some (.step op, ⟨l.after op.symbol.toList, m⟩) := by
  have hstop : ∀ op ∈ UnaryOp.all, op.isFront = false →
      excludes (continuations op.symbol) [] "(".toList op.symbol.toList = true := by
    decide
  have hop' : op ∈ UnaryOp.all := by cases op <;> decide
  have hcall : Parser.arguments n inner ⟨l, op.symbol.toList ++ m⟩ = none :=
    Parser.bind_of_eq_none (Parser.symbol_eq_none_of_excludes (hstop op hop' hop) hm.stop l) _
  refine (Parser.firstOf_of_none (Parser.bind_of_eq_none hcall _) _).trans ?_
  cases op with
  | postInc => exact Parser.firstOf_of_some (Parser.bind_of_eq_some (Parser.symbol_append _ l m)) _
  | postDec =>
    have hinc : Parser.symbol "++" ⟨l, "--".toList ++ m⟩ = none :=
      Parser.symbol_eq_none_of_excludes (by decide) hm.stop l
    refine (Parser.firstOf_of_none (Parser.bind_of_eq_none hinc _) _).trans ?_
    exact Parser.firstOf_of_some (Parser.bind_of_eq_some (Parser.symbol_append _ l m)) _
  | _ => cases hop

theorem frontOp_eq_some (hop : op.isFront) (hm : (mark op.symbol).Ends m)
    (hequals : ∀ c ∈ m.head?, c ≠ '=') (l : Loc) :
    Parser.frontOp ⟨l, op.symbol.toList ++ m⟩ = some (op, ⟨l.after op.symbol.toList, m⟩) := by
  have htable : Parser.frontOp = Parser.symbolOf UnaryOp.symbol frontTable := by
    have hsymbol (s : String) : Parser.symbol s = Parser.symbolNotBefore s [] :=
      funext fun c => (Parser.symbolNotBefore_nil s c).symm
    rw [Parser.frontOp, hsymbol, hsymbol]
    rfl
  have hmem : ∀ op ∈ UnaryOp.all, op.isFront → ∃ y ∈ frontTable, y.1 = op := by decide
  have hall : ∀ op ∈ UnaryOp.all, op.isFront → ∀ y ∈ frontTable.takeWhile (·.1 ≠ op),
      excludes (continuations op.symbol) y.2 y.1.symbol.toList op.symbol.toList = true := by
    decide
  have hbad : ∀ y ∈ frontTable, ∀ c ∈ y.2, c = '=' := by decide
  have hop' : op ∈ UnaryOp.all := by cases op <;> decide
  rw [htable]
  exact Parser.symbolOf_eq_some (hmem op hop' hop) (hall op hop' hop)
    (fun y hy _ c hc hin => hequals c hc (hbad y hy c hin)) hm.stop l

end Token

theorem Gap.head {g : List Char} (h : Gap g) : ∀ c ∈ g.head?, Text.isBlank c ∨ c = '/' := by
  cases h with
  | nil => exact nofun
  | blank hc _ =>
    rintro c ⟨⟩
    exact .inl hc
  | line | block =>
    rintro c ⟨⟩
    exact .inr rfl

theorem Spells.ne_equals {t : Token} {ts : List Token} {cs r : List Char}
    (h : Spells Token.Ends (t :: ts) cs r) (ht : t.Opens) : ∀ c ∈ cs.head?, c ≠ '=' := by
  cases h with
  | @cons _ _ g m _ hg hend _ =>
    cases g with
    | nil =>
      have hne := List.exists_cons_of_ne_nil (Token.text_ne_nil hend.valid)
      obtain ⟨d, ds, hds⟩ := hne
      have hfirst := ht.ne_equals hend.valid
      rw [hds] at hfirst ⊢
      exact hfirst
    | cons d g =>
      rintro c ⟨⟩ rfl
      have hblank : Text.isBlank '=' = false := by decide
      obtain hgap | hgap := hg.head '=' rfl
      · rw [hblank] at hgap
        cases hgap
      · cases hgap

end AttrCheck
