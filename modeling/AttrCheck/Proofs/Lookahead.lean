import AttrCheck.Proofs.NumberWord
import AttrCheck.Proofs.Progress

/-! What stands in front decides which form of a statement can be read there. Every form but that
of expressions begins with words or characters of its own, and no expression begins with those. -/

namespace AttrCheck

namespace Text

def blanks : List Nat :=
  [9, 10, 11, 12, 13, 0x20, 0x85, 0xa0, 0x1680, 0x2000, 0x2001, 0x2002, 0x2003, 0x2004, 0x2005,
    0x2006, 0x2007, 0x2008, 0x2009, 0x200a, 0x2028, 0x2029, 0x202f, 0x205f, 0x3000]

theorem mem_blanks_of_isBlank {c : Char} (h : isBlank c) : c.toNat ∈ blanks := by
  have hrange {l u : Nat} (hc : l ≤ c.toNat ∧ c.toNat ≤ u)
      (hall : ∀ k < u + 1 - l, l + k ∈ blanks) : c.toNat ∈ blanks := by
    have hk := hall (c.toNat - l) (by omega)
    rwa [Nat.add_sub_cancel' hc.1] at hk
  have hone {n : Nat} (hc : c.toNat = n) (hn : n ∈ blanks) : c.toNat ∈ blanks := hc ▸ hn
  simp only [isBlank, Bool.or_eq_true, Bool.and_eq_true, decide_eq_true_eq, or_assoc] at h
  obtain h | h | h | h | h | h | h := h
  · exact hrange h (by decide)
  · exact hone h (by decide)
  · exact hone h (by decide)
  · exact hone h (by decide)
  · exact hone h (by decide)
  · exact hrange h (by decide)
  · obtain h | h | h | h | h := h <;> exact hone h (by decide)

theorem not_isWord_of_isBlank {c : Char} (h : isBlank c) : isWord c = false := by
  have hall : ∀ n ∈ blanks, isWord (Char.ofNat n) = false := by decide +kernel
  have hc := hall c.toNat (mem_blanks_of_isBlank h)
  rwa [Char.ofNat_toNat] at hc

end Text

theorem isNamePart_of_isNameStart {c : Char} (h : isNameStart c) : isNamePart c := by
  simp only [isNameStart, Bool.or_eq_true] at h
  simp only [isNamePart, Char.isAlphanum, Bool.or_eq_true]
  exact h.imp_left .inl

theorem isWord_of_isNamePart {c : Char} (h : isNamePart c) : Text.isWord c := by
  simp only [isNamePart, Bool.or_eq_true, decide_eq_true_eq] at h
  obtain h | rfl := h
  · refine Text.isWord_of_isAlphanum h ?_
    delta Char.isAlphanum Char.isAlpha Char.isUpper Char.isLower Char.isDigit at h
    simp only [Bool.or_eq_true, Bool.and_eq_true, decide_eq_true_eq, ge_iff_le,
      UInt32.le_iff_toNat_le] at h
    change ((65 ≤ c.toNat ∧ c.toNat ≤ 90) ∨ 97 ≤ c.toNat ∧ c.toNat ≤ 122) ∨
      48 ≤ c.toNat ∧ c.toNat ≤ 57 at h
    omega
  · decide

def OpensLayout (c : Char) : Prop := Text.isBlank c ∨ c = '/' ∨ c = '#'

instance (c : Char) : Decidable (OpensLayout c) := inferInstanceAs (Decidable (_ ∨ _))

theorem OpensLayout.not_isWord {c : Char} (h : OpensLayout c) : Text.isWord c = false := by
  obtain h | rfl | rfl := h
  · exact Text.not_isWord_of_isBlank h
  · decide
  · decide

theorem skipLayout_stop {c : Char} (hc : ¬ OpensLayout c) (loc : Loc)
    (cs : List Char) : skipLayout .code loc (c :: cs) = ⟨loc, c :: cs⟩ := by
  simp only [OpensLayout, not_or] at hc
  simp [skipLayout, hc.1, hc.2.1, hc.2.2]

def front (cs : List Char) : String :=
  String.ofList (if frontWord cs = [] then cs.take 1 else frontWord cs)

theorem frontWord_append {word rest : List Char} (hw : ∀ c ∈ word, Text.isWord c)
    (hr : ∀ c ∈ rest.head?, Text.isWord c = false) : frontWord (word ++ rest) = word := by
  have hnil : rest.takeWhile Text.isWord = [] := by
    cases rest with
    | nil => rfl
    | cons c cs => exact List.takeWhile_cons_of_neg (by simp [hr c rfl])
  rw [frontWord, List.takeWhile_append_of_pos hw, hnil, List.append_nil]

theorem front_append {word rest : List Char} (hne : word ≠ []) (hw : ∀ c ∈ word, Text.isWord c)
    (hr : ∀ c ∈ rest.head?, Text.isWord c = false) :
    front (word ++ rest) = String.ofList word := by
  rw [front, frontWord_append hw hr, if_neg hne]

theorem front_cons {c : Char} {cs : List Char} (hc : Text.isWord c = false) :
    front (c :: cs) = String.ofList [c] := by
  rw [front, frontWord, List.takeWhile_cons_of_neg (by simp [hc]), if_pos rfl]
  rfl

theorem head?_front (cs : List Char) : (front cs).toList.head? = cs.head? := by
  cases cs with
  | nil => rfl
  | cons c cs =>
    by_cases hc : Text.isWord c
    · rw [front, frontWord, List.takeWhile_cons_of_pos hc, if_neg nofun, String.toList_ofList]
      rfl
    · rw [front_cons (by simpa using hc), String.toList_ofList]
      rfl

namespace Parser

variable {α β : Type} {K K' : String → Prop}

/-- The parser succeeds only on texts with certain fronts. -/
def Begins (p : Parser α) (K : String → Prop) : Prop := ∀ c a c', p c = some (a, c') →
  K (front c.rest)

theorem begins_failure : Begins (failure : Parser α) K := nofun

namespace Begins

variable {p q : Parser α} {f : α → Parser β}

theorem mono (h : Begins p K) (hK : ∀ w, K w → K' w) : Begins p K' :=
  fun c a c' e => hK _ (h c a c' e)

theorem bind (h : Begins p K) : Begins (p >>= f) K := by
  intro c b c'' e
  obtain ⟨a, c', hp, _⟩ := bind_eq_some_iff.mp e
  exact h c a c' hp

theorem map (h : Begins p K) (g : α → β) : Begins (g <$> p) K := by
  intro c b c' e
  obtain ⟨a, hp, _⟩ := map_eq_some_iff.mp e
  exact h c a c' hp

theorem orElse (hp : Begins p K) (hq : Begins q K) : Begins (p <|> q) K := by
  intro c a c' e
  exact (orElse_eq_some e).elim (hp c a c') (hq c a c')

theorem firstOf {ps : List (Parser α)} (h : ∀ p ∈ ps, Begins p K) :
    Begins (Parser.firstOf ps) K := by
  intro c a c' e
  obtain ⟨p, hp, e⟩ := firstOf_eq_some e
  exact h p hp c a c' e

theorem maybeBind {f : Option α → Parser β} (hp : Begins p K) (hf : ∀ o, Begins (f o) K) :
    Begins (Parser.maybe p >>= f) K := by
  intro c b c'' e
  obtain ⟨o, c', ho, e⟩ := bind_eq_some_iff.mp e
  obtain ⟨a, hp', _⟩ | ⟨_, rfl⟩ := maybe_eq_some ho
  · exact hp c a c' hp'
  · exact hf o c b c'' e

theorem manyBind {f : List α → Parser β} {n : Nat} (hp : Begins p K) (hf : ∀ as, Begins (f as) K) :
    Begins (Parser.many p n >>= f) K := by
  intro c b c'' e
  obtain ⟨as, c', has, e⟩ := bind_eq_some_iff.mp e
  cases n with
  | zero =>
    obtain ⟨_, rfl⟩ := pure_eq_some_iff.mp has
    exact hf as c b c'' e
  | succ n =>
    obtain has | has := orElse_eq_some has
    · exact hp.bind c as c' has
    · obtain ⟨_, rfl⟩ := pure_eq_some_iff.mp has
      exact hf as c b c'' e

theorem hereBind {f : Loc → Parser β} (hf : ∀ l, Begins (f l) K) : Begins (here >>= f) K :=
  fun c b c' e => hf c.loc c b c' e

theorem eq_none {q : Parser β} (hp : Begins p K) (hq : Begins q K') (hK : ∀ w, K w → ¬ K' w)
    {c : Cursor} {x : α × Cursor} (h : p c = some x) : q c = none := by
  cases e : q c with
  | none => rfl
  | some y => exact absurd (hq c y.1 y.2 e) (hK _ (hp c x.1 x.2 h))

end Begins

theorem eq_append_of_symbol {s : String} {c c' : Cursor} {u : Unit}
    (h : symbol s c = some (u, c')) : c.rest = s.toList ++ c'.rest := by
  obtain ⟨t, rest, hs, rfl⟩ := lexeme_eq_some h
  simp only [Option.map_eq_some_iff, Prod.mk.injEq] at hs
  obtain ⟨_, hs, _, rfl, rfl⟩ := hs
  exact (List.append_eq_of_isPrefixOf?_eq_some hs).symm

theorem notBefore_eq_some {f : Char → Bool} {c c' : Cursor} {u : Unit}
    (h : notBefore f c = some (u, c')) : c' = c ∧ ∀ d ∈ c.rest.head?, f d = false := by
  unfold notBefore at h
  split at h
  next hr => exact ⟨(Prod.mk.inj (Option.some.inj h)).2.symm, by simp [hr]⟩
  next d ds hr =>
    split at h
    · cases h
    next hd =>
      refine ⟨(Prod.mk.inj (Option.some.inj h)).2.symm, fun e he => ?_⟩
      rw [hr, List.head?_cons, Option.mem_some_iff] at he
      rw [← he]
      simpa using hd

section Characters

variable {p : Char → Prop} [DecidablePred p]

/-! Statements on the characters of a text are decided by going through these alone. -/

instance (priority := high) (cs : List Char) : Decidable (∀ c ∈ cs, p c) := List.decidableBAll p cs

instance (priority := high) (o : Option Char) : Decidable (∀ c ∈ o, p c) :=
  Option.decidableForallMem o

instance (priority := high) (o : Option Char) : Decidable (∃ c ∈ o, p c) :=
  Option.decidableExistsMem o

end Characters

theorem begins_symbol {s : String} (hs : ∃ c ∈ s.toList.head?, Text.isWord c = false) :
    Begins (symbol s) (· = String.ofList (s.toList.take 1)) := by
  intro c u c' e
  obtain ⟨d, hd, hword⟩ := hs
  obtain ⟨cs, hcs⟩ := List.head?_eq_some_iff.mp hd
  rw [eq_append_of_symbol e, hcs, List.cons_append, front_cons hword]
  rfl

def IsWhole (s : String) : Prop := s.toList ≠ [] ∧ ∀ c ∈ s.toList, Text.isWord c

instance (s : String) : Decidable (IsWhole s) := inferInstanceAs (Decidable (_ ∧ _))

theorem begins_keyword {s : String} (hs : IsWhole s) : Begins (keyword s) (· = s) := by
  intro c a c₂ e
  obtain ⟨_, c', h, e⟩ := bind_eq_some_iff.mp e
  rw [eq_append_of_symbol h, front_append hs.1 hs.2 (notBefore_eq_some e).2,
    String.ofList_toList]

theorem begins_wordAndBlank {s : String} (hs : IsWhole s) : Begins (wordAndBlank s) (· = s) := by
  intro c a c₂ e
  obtain ⟨_, c', h, e⟩ := bind_eq_some_iff.mp e
  obtain ⟨_, c'', hrun, _⟩ := bind_eq_some_iff.mp e
  have hblank : ∀ d ∈ c'.rest.head?, Text.isWord d = false := by
    intro d hd
    obtain ⟨ds, hds⟩ := List.head?_eq_some_iff.mp hd
    obtain ⟨blanks, c₁, hblanks, hrun⟩ := bind_eq_some_iff.mp hrun
    by_contra hword
    have hd : Text.isBlank d = false := by
      by_contra hb
      exact hword (Text.not_isWord_of_isBlank (by simpa using hb))
    obtain ⟨_, _, hsplit, _⟩ := lexeme_eq_some hblanks
    rw [hds, List.takeWhile_cons_of_neg (by simp [hd])] at hsplit
    obtain ⟨rfl, _⟩ := Prod.mk.inj (Option.some.inj hsplit)
    cases hrun
  rw [eq_append_of_symbol h, front_append hs.1 hs.2 hblank, String.ofList_toList]

theorem begins_theWord {s : String} (hs : IsWhole s) : Begins (theWord s) (· = s) :=
  (begins_keyword hs).bind

theorem begins_oneWordOf {words : List String} (hw : ∀ s ∈ words, IsWhole s) :
    Begins (oneWordOf words) (· ∈ words) := by
  refine .firstOf fun p hp => ?_
  obtain ⟨s, hs, rfl⟩ := List.mem_map.mp hp
  exact (begins_theWord (hw s hs)).mono fun w h => h ▸ hs

def typeFronts : List String := ["const", "unsigned", "signed"] ++ baseTypes

theorem begins_typeName (n : Nat) : Begins (typeName n) (· ∈ typeFronts) := by
  have hblank (s : String) (hs : IsWhole s) (hmem : s ∈ typeFronts) :
      Begins (wordAndBlank s) (· ∈ typeFronts) :=
    (begins_wordAndBlank hs).mono fun w h => h ▸ hmem
  have hall : ∀ s ∈ baseTypes, IsWhole s := by decide
  have hbase : Begins (oneWordOf baseTypes) (· ∈ typeFronts) :=
    (begins_oneWordOf hall).mono fun w h => List.mem_append_right _ h
  have hsign : Begins (firstOf [wordAndBlank "unsigned", wordAndBlank "signed"])
      (· ∈ typeFronts) :=
    (hblank "unsigned" (by decide) (by decide)).orElse
      ((hblank "signed" (by decide) (by decide)).orElse begins_failure)
  exact .maybeBind (hblank "const" (by decide) (by decide)) fun _ =>
    .bind (hsign.bind.orElse (hbase.orElse begins_failure))

def statementFronts : List String :=
  ["[", "#", "\x7b", "\x7d", ";"] ++ (reservedWords.erase "true").erase "false"

theorem begins_name : Begins name fun w =>
    (∃ c ∈ w.toList.head?, isNameStart c) ∧ reservedWords.contains w = false := by
  intro c a c' e
  obtain ⟨t, rest, hs, _⟩ := lexeme_eq_some e
  unfold splitName at hs
  split at hs
  · cases hs
  next b cs hrest =>
    split at hs
    next hc =>
      simp only [Bool.and_eq_true, Bool.not_eq_true', isReserved] at hc
      have hword : frontWord c.rest ≠ [] := by
        rw [hrest, frontWord,
          List.takeWhile_cons_of_pos (isWord_of_isNamePart (isNamePart_of_isNameStart hc.1))]
        nofun
      refine ⟨⟨b, by rw [head?_front, hrest]; rfl, hc.1⟩, ?_⟩
      rw [front, if_neg hword]
      exact hc.2
    · cases hs

theorem head_of_bareNumber {cs : List Char} {n : Nat} (h : bareNumber? cs = some n) :
    ∃ c ∈ cs.head?, c.isDigit := by
  unfold bareNumber? at h
  split at h
  · exact ⟨'0', rfl, rfl⟩
  · split at h
    next hd =>
      simp only [Bool.and_eq_true, Bool.not_eq_true'] at hd
      cases cs with
      | nil => cases hd.1
      | cons c cs => exact ⟨c, rfl, by simp_all⟩
    · cases h

theorem head_of_wordNumber {word : List Char} {n : Nat} (h : wordNumber? word = some n) :
    ∃ c ∈ word.head?, c.isDigit := by
  obtain ⟨bare, ending, _, rfl, hbare⟩ := exists_ending_of_wordNumber h
  obtain ⟨c, hc, hd⟩ := head_of_bareNumber hbare
  exact ⟨c, by rw [List.head?_append, hc]; rfl, hd⟩

theorem number_eq_some {c c' : Cursor} {n : Nat} {s : String} (h : number c = some ((n, s), c')) :
    wordNumber? s.toList = some n ∧ s.toList = frontWord c.rest ∧
      c'.rest = c.rest.dropWhile Text.isWord := by
  obtain ⟨t, rest, hs, rfl⟩ := lexeme_eq_some h
  obtain ⟨m, hm, heq⟩ := Option.map_eq_some_iff.mp hs
  obtain ⟨⟨rfl, rfl⟩, rfl, rfl⟩ : (m = n ∧ String.ofList (frontWord c.rest) = s) ∧
      frontWord c.rest = t ∧ c.rest.dropWhile Text.isWord = rest := by simpa using heq
  rw [String.toList_ofList]
  exact ⟨hm, rfl, rfl⟩

theorem begins_number_word : Begins number fun w => ∃ n, wordNumber? w.toList = some n := by
  rintro c ⟨n, s⟩ c' h
  obtain ⟨hn, hs, _⟩ := number_eq_some h
  have hne : frontWord c.rest ≠ [] := by
    obtain ⟨d, hd, _⟩ := head_of_wordNumber hn
    exact List.ne_nil_of_mem (List.mem_of_mem_head? (hs ▸ hd))
  rw [front, if_neg hne, String.toList_ofList, ← hs]
  exact ⟨n, hn⟩

theorem begins_number : Begins number fun w => ∃ c ∈ w.toList.head?, c.isDigit :=
  begins_number_word.mono fun _ ⟨_, h⟩ => head_of_wordNumber h

theorem begins_stringLiteral : Begins stringLiteral (· = "\"") := by
  intro c a c' e
  obtain ⟨t, rest, hs, _⟩ := lexeme_eq_some e
  obtain ⟨body, _, ht, hrest⟩ := splitString_eq_some hs
  rw [hrest, ht, List.cons_append, List.cons_append, front_cons (by decide)]

section Expr

variable {n : Nat} {inner : Parser Expr}

def frontOpFronts : List String := ["+", "-", "!", "~"]

theorem begins_frontOp : Begins frontOp (· ∈ frontOpFronts) := by
  have hsymbol {s : String} (hs : ∃ c ∈ s.toList.head?, Text.isWord c = false)
      (hmem : String.ofList (s.toList.take 1) ∈ frontOpFronts) :
      Begins (symbol s) (· ∈ frontOpFronts) := (begins_symbol hs).mono fun _ h => h ▸ hmem
  refine .firstOf fun p hp => ?_
  simp only [List.mem_cons, List.not_mem_nil, or_false] at hp
  obtain rfl | rfl | rfl | rfl | rfl | rfl := hp
  · exact (hsymbol (by decide) (by decide)).bind
  · exact (hsymbol (by decide) (by decide)).bind
  all_goals exact Begins.bind (Begins.bind (hsymbol (by decide) (by decide)))

def OpensOperand (w : String) : Prop := (∃ c ∈ w.toList.head?, c.isDigit) ∨
  ((∃ c ∈ w.toList.head?, isNameStart c) ∧ reservedWords.contains w = false) ∨
  w ∈ ["\"", "true", "false", "("] ++ frontOpFronts

namespace Begins

variable (hnumber : Begins number K)
  (hother : ∀ w, ((∃ c ∈ w.toList.head?, isNameStart c) ∧ reservedWords.contains w = false) ∨
    w ∈ ["\"", "true", "false", "("] ++ frontOpFronts → K w)
include hnumber hother

theorem primary : Begins (Parser.primary inner) K := by
  have hmark {w : String} (hw : w ∈ ["\"", "true", "false", "("]) : K w :=
    hother w (.inr (List.mem_append_left _ hw))
  have hword (s : String) (hs : IsWhole s) (hmem : s ∈ ["\"", "true", "false", "("]) :
      Begins (theWord s) K := (begins_theWord hs).mono fun _ h => h ▸ hmark hmem
  have hbool : Begins boolWord K :=
    .orElse (hword "true" (by decide) (by decide)).bind
      (.orElse (hword "false" (by decide) (by decide)).bind begins_failure)
  have hparens : Begins (parens inner) K :=
    ((begins_symbol (s := "(") (by decide)).mono fun _ h => h ▸ hmark (by decide)).bind
  have hname : Begins name K := begins_name.mono fun w h => hother w (.inl h)
  have hstring : Begins stringLiteral K :=
    begins_stringLiteral.mono fun _ h => h ▸ hmark (by decide)
  exact .hereBind fun _ => .orElse hnumber.bind <| .orElse hstring.bind <|
    .orElse hbool.bind <| .orElse hparens.bind <| .orElse hname.bind begins_failure

theorem unary (n : Nat) : Begins (Parser.unary n inner) K := by
  have hfront : Begins frontOp K :=
    begins_frontOp.mono fun w h => hother w (.inr (List.mem_append_right _ h))
  exact .manyBind (.hereBind fun _ => hfront.bind) fun _ =>
    .bind (.hereBind fun _ => (primary hnumber hother).bind)

theorem expr (n : Nat) : Begins (Parser.expr n) K := by
  cases n with
  | zero => exact begins_failure
  | succ n => exact .hereBind fun _ => (unary hnumber hother (n + 1)).bind

end Begins

theorem begins_unary (n : Nat) : Begins (unary n inner) OpensOperand :=
  .unary (begins_number.mono fun _ h => .inl h) (fun _ h => .inr h) n

theorem begins_expr (n : Nat) : Begins (expr n) OpensOperand :=
  .expr (begins_number.mono fun _ h => .inl h) (fun _ h => .inr h) n

theorem OpensOperand.not_mem_statementFronts {w : String} (h : OpensOperand w) :
    w ∉ statementFronts := by
  have hdigit : ∀ s ∈ statementFronts, ∀ c ∈ s.toList.head?, c.isDigit = false := by decide
  have hreserved : ∀ s ∈ statementFronts, (∃ c ∈ s.toList.head?, isNameStart c) →
      reservedWords.contains s = true := by
    decide
  have hmarks : ∀ s ∈ ["\"", "true", "false", "("] ++ frontOpFronts, s ∉ statementFronts := by
    decide
  intro hw
  obtain ⟨c, hc, hd⟩ | ⟨hhead, hfree⟩ | hmem := h
  · exact absurd ((hdigit w hw c hc).symm.trans hd) nofun
  · exact absurd (hfree.symm.trans (hreserved w hw hhead)) nofun
  · exact hmarks w hmem hw

end Expr

theorem firstOf_eq_some_of_begins {ps : List ((String → Prop) × Parser α)}
    (hb : ∀ f ∈ ps, Begins f.2 f.1) (hdiff : ps.Pairwise fun f g => ∀ w, f.1 w → ¬ g.1 w)
    {f : (String → Prop) × Parser α} (hf : f ∈ ps) {c : Cursor} {x : α × Cursor}
    (hx : f.2 c = some x) : firstOf (ps.map Prod.snd) c = some x := by
  induction ps with
  | nil => cases hf
  | cons g ps ih =>
    obtain ⟨hg, hdiff⟩ := List.pairwise_cons.mp hdiff
    show (g.2 c <|> firstOf (ps.map Prod.snd) c) = some x
    obtain rfl | hf := List.mem_cons.mp hf
    · rw [hx]
      rfl
    · have hnone : g.2 c = none :=
        (hb f (.tail _ hf)).eq_none (hb g (.head _)) (fun w hw hw' => hg f hf w hw' hw) hx
      rw [hnone]
      exact ih (fun f hf => hb f (.tail _ hf)) hdiff hf

section Specifier

variable {n : Nat} {inner : Parser Expr}

def specifierForms (n : Nat) (inner : Parser Expr) : List ((String → Prop) × Parser Specifier) :=
  [((· = "["), bracketSpecifier n inner), ((· = "__attribute__"), gnuSpecifier n inner),
    ((· = "__declspec"), declspecSpecifier n inner), ((· = "#"), loopSpecifier n inner)]

theorem begins_specifierForms : ∀ f ∈ specifierForms n inner, Begins f.2 f.1 := by
  intro f hf
  simp only [specifierForms, List.mem_cons, List.not_mem_nil, or_false] at hf
  obtain rfl | rfl | rfl | rfl := hf
  · exact .hereBind fun _ => .bind (.bind (begins_symbol (by decide)))
  · exact .hereBind fun _ => .bind (.bind (begins_keyword (by decide)))
  · exact .hereBind fun _ => .bind (.bind (begins_keyword (by decide)))
  · exact .hereBind fun _ => .bind (.bind (begins_symbol (by decide)))

theorem anySpecifier_eq_some {f : (String → Prop) × Parser Specifier}
    (hf : f ∈ specifierForms n inner) {c : Cursor} {x : Specifier × Cursor} (hx : f.2 c = some x) :
    anySpecifier n inner c = some x := by
  refine firstOf_eq_some_of_begins begins_specifierForms ?_ hf hx
  have hdiffer : ["[", "__attribute__", "__declspec", "#"].Pairwise (· ≠ ·) := by decide
  have hmap : (specifierForms n inner).map Prod.fst =
      ["[", "__attribute__", "__declspec", "#"].map fun s w => w = s := rfl
  have hfronts : ((specifierForms n inner).map Prod.fst).Pairwise
      fun K K' => ∀ w, K w → ¬ K' w := by
    rw [hmap, List.pairwise_map]
    exact hdiffer.imp fun hne w hw hw' => hne (hw.symm.trans hw')
  exact List.pairwise_map.mp hfronts

def specifierFronts : List String := ["[", "__attribute__", "__declspec", "#"]

theorem begins_anySpecifier : Begins (anySpecifier n inner) (· ∈ specifierFronts) := by
  have hform : ∀ f ∈ specifierForms n inner, ∀ w, f.1 w → w ∈ specifierFronts := by
    simp only [specifierForms, List.mem_cons, List.not_mem_nil, or_false, forall_eq_or_imp,
      forall_eq]
    decide
  refine .firstOf fun p hp => ?_
  have hmem : p ∈ (specifierForms n inner).map Prod.snd := hp
  obtain ⟨f, hf, rfl⟩ := List.mem_map.mp hmem
  exact (begins_specifierForms f hf).mono (hform f hf)

end Specifier

section Stmt

variable {n : Nat} {sub : Parser Stmt}

def wordForms (n : Nat) (sub : Parser Stmt) : List (List String × Parser Stmt) :=
  [(specifierFronts, annotatedStmt n sub), (["case"], caseStmt n sub),
    (["default"], defaultStmt sub), (["\x7b"], compoundStmt n sub), (["if"], ifStmt n sub),
    (["switch"], conditionStmt n sub "switch" .switch),
    (["while"], conditionStmt n sub "while" .whileLoop), (["do"], doStmt n sub),
    (["for"], rangeForStmt n sub <|> forStmt n sub), (["break"], wordStmt "break" .brk),
    (["continue"], wordStmt "continue" .cont), (["return"], returnStmt n),
    (typeFronts, declStmt n), ([";"], nullStmt)]

def wordFronts : List (List String) :=
  [specifierFronts, ["case"], ["default"], ["\x7b"], ["if"], ["switch"], ["while"], ["do"], ["for"],
    ["break"], ["continue"], ["return"], typeFronts, [";"]]

def stmtForms (n : Nat) (sub : Parser Stmt) : List ((String → Prop) × Parser Stmt) :=
  (wordForms n sub).map (fun f => ((· ∈ f.1), f.2)) ++ [((· ∉ statementFronts), exprStmt n)]

theorem stmtWith_eq (c : Cursor) :
    stmtWith n sub c = firstOf ((stmtForms n sub).map Prod.snd) c := by
  have hor {α : Type} (p q : Parser α) (d : Cursor) : (p <|> q) d = (p d).or (q d) := by
    show (p d <|> q d) = _
    cases p d <;> rfl
  simp only [stmtWith, stmtForms, wordForms, List.map_cons, List.map_nil, List.cons_append,
    List.nil_append, firstOf, hor, Option.or_assoc]

theorem begins_nullStmt : Begins nullStmt (· = ";") :=
  .hereBind fun _ => .bind (begins_symbol (by decide))

theorem begins_declStmt : Begins (declStmt n) (· ∈ typeFronts) :=
  .bind (.hereBind fun _ => (begins_typeName n).bind)

theorem begins_exprStmt : Begins (exprStmt n) (· ∉ statementFronts) :=
  .hereBind fun _ => ((begins_expr n).mono fun _ h => h.not_mem_statementFronts).bind

theorem begins_stmtForms : ∀ f ∈ stmtForms n sub, Begins f.2 f.1 := by
  intro f hf
  obtain hf | hf := List.mem_append.mp hf
  · obtain ⟨g, hg, rfl⟩ := List.mem_map.mp hf
    have hword {s : String} (hs : IsWhole s) {q : Loc → Parser Stmt} :
        Begins (do let start ← here; keyword s; q start) (· ∈ [s]) :=
      .hereBind fun _ => ((begins_keyword hs).mono fun w h => List.mem_singleton.mpr h).bind
    simp only [wordForms, List.mem_cons, List.not_mem_nil, or_false] at hg
    obtain rfl | rfl | rfl | rfl | rfl | rfl | rfl | rfl | rfl | rfl | rfl | rfl | rfl | rfl := hg
    · exact .bind (.bind begins_anySpecifier)
    · exact hword (by decide)
    · exact hword (by decide)
    · exact .hereBind fun _ => .bind ((begins_symbol (by decide)).mono fun w h =>
        List.mem_singleton.mpr h)
    · exact hword (by decide)
    · exact hword (by decide)
    · exact hword (by decide)
    · exact hword (by decide)
    · exact .orElse (hword (by decide)) (hword (by decide))
    · exact hword (by decide)
    · exact hword (by decide)
    · exact hword (by decide)
    · exact begins_declStmt
    · exact begins_nullStmt.mono fun w h => List.mem_singleton.mpr h
  · obtain rfl := List.mem_singleton.mp hf
    exact begins_exprStmt

theorem stmtForms_differ :
    (stmtForms n sub).Pairwise fun f g => ∀ w, f.1 w → ¬ g.1 w := by
  have hmap : (wordForms n sub).map Prod.fst = wordFronts := rfl
  have hdiffer : wordFronts.Pairwise fun ks ks' => ∀ w ∈ ks, w ∉ ks' := by decide
  have hsubset : ∀ ks ∈ wordFronts, ∀ w ∈ ks, w ∈ statementFronts := by decide
  rw [← hmap, List.pairwise_map] at hdiffer
  refine List.pairwise_append.mpr ⟨List.pairwise_map.mpr hdiffer, List.pairwise_singleton _ _, ?_⟩
  intro f hf g hg w hw
  obtain ⟨f, hf', rfl⟩ := List.mem_map.mp hf
  obtain rfl := List.mem_singleton.mp hg
  have hfronts : f.1 ∈ wordFronts := hmap ▸ List.mem_map_of_mem hf'
  exact not_not.mpr (hsubset f.1 hfronts w hw)

theorem stmtWith_eq_some {f : (String → Prop) × Parser Stmt} (hf : f ∈ stmtForms n sub)
    {c : Cursor} {x : Stmt × Cursor} (hx : f.2 c = some x) : stmtWith n sub c = some x := by
  rw [stmtWith_eq]
  exact firstOf_eq_some_of_begins begins_stmtForms stmtForms_differ hf hx

theorem exists_form_of_stmtWith {c : Cursor} {s : Stmt} {c' : Cursor}
    (h : stmtWith n sub c = some (s, c')) : ∃ f ∈ stmtForms n sub, f.2 c = some (s, c') := by
  rw [stmtWith_eq] at h
  obtain ⟨p, hp, h⟩ := firstOf_eq_some h
  obtain ⟨f, hf, rfl⟩ := List.mem_map.mp hp
  exact ⟨f, hf, h⟩

theorem begins_stmtWith : Begins (stmtWith n sub) (· ∉ ["\x7d", "else"]) := by
  intro c s c' h
  obtain ⟨f, hf, h⟩ := exists_form_of_stmtWith h
  have hfront := begins_stmtForms f hf c s c' h
  obtain hf | hf := List.mem_append.mp hf
  · obtain ⟨g, hg, rfl⟩ := List.mem_map.mp hf
    have hall : ∀ ks ∈ wordFronts, ∀ w ∈ ks, w ∉ ["\x7d", "else"] := by decide
    exact hall g.1 (List.mem_map_of_mem (f := Prod.fst) hg) _ hfront
  · obtain rfl := List.mem_singleton.mp hf
    have hall : ∀ w ∈ ["\x7d", "else"], w ∈ statementFronts := by decide
    exact fun hw => hfront (hall _ hw)

theorem begins_stmt (n : Nat) : Begins (stmt n) (· ∉ ["\x7d", "else"]) := by
  cases n with
  | zero => exact begins_failure
  | succ n => exact begins_stmtWith

theorem annotatedStmt_of_front {c : Cursor} {s : Stmt} {c' : Cursor}
    (h : stmtWith n sub c = some (s, c')) (hc : front c.rest ∈ specifierFronts) :
    annotatedStmt n sub c = some (s, c') := by
  obtain ⟨f, hf, h⟩ := exists_form_of_stmtWith h
  obtain ⟨hdiffer, _⟩ := List.pairwise_cons.mp (stmtForms_differ : (stmtForms n sub).Pairwise _)
  obtain rfl | hf' := List.mem_cons.mp hf
  · exact h
  · exact absurd (begins_stmtForms f hf c s c' h) (hdiffer f hf' _ hc)

theorem begins_initializer : Begins (initializer n) (· = "=") :=
  .bind (.bind (begins_symbol (by decide)))

theorem variableDecl_eq_none {α : Type} {q : Parser α} (hq : Begins q (· ∉ ["=", ";"]))
    {c d e : Cursor} {type : TypeName} {var : String} {x : α × Cursor}
    (htype : typeName n c = some (type, d)) (hvar : spaced name d = some (var, e))
    (hx : spaced q e = some x) : variableDecl n c = none := by
  obtain ⟨_, e₁, hlayout, hq'⟩ := bind_eq_some_iff.mp (Prod.eta x ▸ hx)
  have hinit : initializer n e₁ = none :=
    hq.eq_none begins_initializer (fun w hw hw' => hw (hw' ▸ .head _)) hq'
  have hend : symbol ";" e₁ = none :=
    hq.eq_none (begins_symbol (by decide)) (fun w hw hw' => hw (hw' ▸ .tail _ (.head _))) hq'
  cases hdecl : variableDecl n c with
  | none => rfl
  | some y =>
    rw [variableDecl, bind_here_apply] at hdecl
    obtain ⟨type', d', htype', hdecl⟩ := bind_eq_some_iff.mp (Prod.eta y ▸ hdecl)
    obtain ⟨rfl, rfl⟩ := Prod.mk.inj (Option.some.inj (htype.symm.trans htype'))
    obtain ⟨var', e', hvar', hdecl⟩ := bind_eq_some_iff.mp hdecl
    obtain ⟨rfl, rfl⟩ := Prod.mk.inj (Option.some.inj (hvar.symm.trans hvar'))
    obtain ⟨_, e₂, hlayout', hdecl⟩ := bind_eq_some_iff.mp hdecl
    obtain ⟨_, rfl⟩ := Prod.mk.inj (Option.some.inj (hlayout.symm.trans hlayout'))
    obtain ⟨init, e₃, hmaybe, hdecl⟩ := bind_eq_some_iff.mp hdecl
    obtain ⟨_, hsome, _⟩ | ⟨_, rfl⟩ := maybe_eq_some hmaybe
    · rw [hinit] at hsome
      cases hsome
    · obtain ⟨_, _, hsemicolon, _⟩ := bind_eq_some_iff.mp hdecl
      rw [hend] at hsemicolon
      cases hsemicolon

theorem rangeForStmt_eq_none {c c' : Cursor} {s : Stmt} (h : forStmt n sub c = some (s, c')) :
    rangeForStmt n sub c = none := by
  cases hr : rangeForStmt n sub c with
  | none => rfl
  | some y =>
    rw [forStmt, bind_here_apply] at h
    rw [rangeForStmt, bind_here_apply] at hr
    obtain ⟨_, c₁, hfor, h⟩ := bind_eq_some_iff.mp h
    obtain ⟨_, c₁', hfor', hr⟩ := bind_eq_some_iff.mp (Prod.eta y ▸ hr)
    obtain ⟨_, rfl⟩ := Prod.mk.inj (Option.some.inj (hfor.symm.trans hfor'))
    obtain ⟨_, c₂, hopen, h⟩ := bind_eq_some_iff.mp h
    obtain ⟨_, c₂', hopen', hr⟩ := bind_eq_some_iff.mp hr
    obtain ⟨_, rfl⟩ := Prod.mk.inj (Option.some.inj (hopen.symm.trans hopen'))
    obtain ⟨init, _, hinit, _⟩ := bind_eq_some_iff.mp h
    obtain ⟨_, c₃, hlayout, hinit⟩ := bind_eq_some_iff.mp hinit
    obtain ⟨type, c₄, htype, hr⟩ := bind_eq_some_iff.mp hr
    obtain ⟨_, c₃', hlayout', htype⟩ := bind_eq_some_iff.mp htype
    obtain ⟨_, rfl⟩ := Prod.mk.inj (Option.some.inj (hlayout.symm.trans hlayout'))
    obtain ⟨var, c₅, hvar, hr⟩ := bind_eq_some_iff.mp hr
    obtain ⟨_, c₆, hcolon, _⟩ := bind_eq_some_iff.mp hr
    -- What begins with a type is no expression and no lone semicolon, and a colon ends no variable.
    have hfront := begins_typeName n c₃ type c₄ htype
    have hcolon' : Begins (symbol ":") (· ∉ ["=", ";"]) :=
      (begins_symbol (by decide)).mono fun w h => by
        rw [h]
        decide
    have hdecl := variableDecl_eq_none hcolon' htype hvar hcolon
    have htypes : ∀ w ∈ typeFronts, w ∈ statementFronts ∧ w ≠ ";" := by decide
    obtain ⟨p, hp, hinit⟩ := firstOf_eq_some hinit
    simp only [List.mem_cons, List.not_mem_nil, or_false] at hp
    obtain rfl | rfl | rfl := hp
    · obtain ⟨_, hinit, _⟩ := map_eq_some_iff.mp hinit
      obtain ⟨_, _, hinit, _⟩ := bind_eq_some_iff.mp hinit
      rw [hdecl] at hinit
      cases hinit
    · obtain ⟨t, hinit, _⟩ := map_eq_some_iff.mp hinit
      exact absurd (htypes _ hfront).1 (begins_exprStmt c₃ t _ hinit)
    · obtain ⟨t, _, hinit, _⟩ := bind_eq_some_iff.mp hinit
      exact absurd (begins_nullStmt c₃ t _ hinit) (htypes _ hfront).2

end Stmt

theorem function_eq_none {n : Nat} {c c' : Cursor} {v : VarDecl}
    (h : variableDecl n c = some (v, c')) : function n c = none := by
  cases hf : function n c with
  | none => rfl
  | some y =>
    have htypes : ∀ w ∈ typeFronts, w ≠ "template" := by decide
    have htemplate : templateHeader n c = none := by
      have hdecl : Begins (variableDecl n) (· ∈ typeFronts) :=
        .hereBind fun _ => (begins_typeName n).bind
      have hhead : Begins (templateHeader n) (· = "template") := (begins_keyword (by decide)).bind
      exact hdecl.eq_none hhead (fun w hw => htypes w hw) h
    rw [function, bind_here_apply] at hf
    obtain ⟨params, c₁, hparams, hf⟩ := bind_eq_some_iff.mp (Prod.eta y ▸ hf)
    obtain hparams | hparams := orElse_eq_some hparams
    · rw [htemplate] at hparams
      cases hparams
    obtain ⟨_, rfl⟩ := pure_eq_some_iff.mp hparams
    obtain ⟨type, c₂, htype, hf⟩ := bind_eq_some_iff.mp hf
    obtain ⟨var, c₃, hvar, hf⟩ := bind_eq_some_iff.mp hf
    obtain ⟨_, c₄, hopen, _⟩ := bind_eq_some_iff.mp hf
    have hparens : Begins (parens (Parser.orElse (commaList (param n) n) [])) (· ∉ ["=", ";"]) :=
      ((begins_symbol (s := "(") (by decide)).mono fun w h => by
        rw [h]
        decide).bind
    rw [variableDecl_eq_none hparens htype hvar hopen] at h
    cases h

end Parser

end AttrCheck
