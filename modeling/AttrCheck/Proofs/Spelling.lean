import AttrCheck.Proofs.DirectiveReading

/-! Texts as sequences of tokens. Layout may stand in front of every token, and a token ends where
none of the characters that would make a longer one of it follows. A scan through layout stops in
front of the first token. -/

namespace AttrCheck

def punctuators : List String :=
  ["[", "]", "(", ")", "\x7b", "\x7d", ".", "->", "++", "--", "&", "*", "+", "-", "~", "!", "/", "%",
    "<<", ">>", "<", ">", "<=", ">=", "==", "!=", "^", "|", "&&", "||", "?", ":", "::", ";", "...",
    "=", "*=", "/=", "%=", "+=", "-=", "<<=", ">>=", "&=", "^=", "|=", ",", "#", "##", "<:", ":>",
    "<%", "%>", "%:", "%:%:", "//", "/*"]

def continuations (s : String) : List Char :=
  punctuators.filterMap fun q =>
    match s.toList.isPrefixOf? q.toList with
    | some [c] => some c
    | _ => none

theorem mem_continuations {s : String} {c : Char} :
    c ∈ continuations s ↔ String.ofList (s.toList ++ [c]) ∈ punctuators := by
  rw [continuations, List.mem_filterMap]
  constructor
  · rintro ⟨q, hq, h⟩
    split at h
    next c' hprefix =>
      obtain rfl := Option.some.inj h
      rwa [List.append_eq_of_isPrefixOf?_eq_some hprefix, String.ofList_toList]
    · cases h
  · intro h
    refine ⟨_, h, ?_⟩
    have hprefix : ∀ cs : List Char, cs.isPrefixOf? (cs ++ [c]) = some [c] := by
      intro cs
      induction cs with
      | nil => rfl
      | cons d cs ih => simp [List.isPrefixOf?, ih]
    rw [String.toList_ofList, hprefix]

structure TypeWords where
  isConst : Bool
  sign : Option String
  base : String
  marks : List String

namespace TypeWords

def text (w : TypeWords) : String :=
  (if w.isConst then "const " else "") ++ (w.sign.map (· ++ " ")).getD "" ++ w.base ++
    String.join w.marks

structure Valid (w : TypeWords) : Prop where
  sign : ∀ s ∈ w.sign, s ∈ ["unsigned", "signed"]
  base : w.base ∈ baseTypes
  marks : ∀ s ∈ w.marks, s ∈ ["*", "&", " *", " &"]

theorem Valid.exists_head {w : TypeWords} (h : w.Valid) :
    ∃ c ∈ w.text.toList.head?, isNameStart c := by
  have hbase : ∀ s ∈ baseTypes, ∃ c ∈ s.toList.head?, isNameStart c := by decide
  have hsign : ∀ s ∈ ["unsigned", "signed"], ∃ c ∈ s.toList.head?, isNameStart c := by decide
  have hfront {s : String} (hs : ∃ c ∈ s.toList.head?, isNameStart c) (cs : List Char) :
      ∃ c ∈ (s.toList ++ cs).head?, isNameStart c := by
    obtain ⟨c, hc, hstart⟩ := hs
    exact ⟨c, by rw [List.head?_append, hc]; rfl, hstart⟩
  cases hconst : w.isConst with
  | true =>
    refine ⟨'c', ?_, by decide⟩
    simp [text, hconst]
  | false =>
    cases hs : w.sign with
    | some s =>
      have htext : w.text.toList = s.toList ++ (" " ++ w.base ++ String.join w.marks).toList := by
        simp [text, hconst, hs]
      rw [htext]
      exact hfront (hsign s (h.sign s hs)) _
    | none =>
      have htext : w.text.toList = w.base.toList ++ (String.join w.marks).toList := by
        simp [text, hconst, hs]
      rw [htext]
      exact hfront (hbase w.base h.base) _

end TypeWords

def IsType (isConst : Bool) (s : String) : Prop :=
  ∃ w : TypeWords, w.Valid ∧ w.isConst = isConst ∧ w.text = s

def IsStringBody (s : String) : Prop :=
  splitStringBody (s.toList ++ ['"']) = some (s.toList, [])

instance (s : String) : Decidable (IsStringBody s) := inferInstanceAs (Decidable (_ = _))

theorem IsName.isWhole {s : String} (h : IsName s) : Parser.IsWhole s := by
  refine ⟨?_, fun c hc => isWord_of_isNamePart (h.2.1 c hc)⟩
  obtain ⟨c, hc, _⟩ := h.1
  rintro hnil
  rw [hnil] at hc
  cases hc

inductive Token where
  /-- A name or a word of the language. -/
  | word (s : String)
  | number (s : String)
  /-- A string literal, by what stands between its quotes. -/
  | string (body : String)
  /-- An operator between two operands. -/
  | binary (op : BinaryOp)
  /-- Any other operator, and punctuation. -/
  | mark (s : String)
  /-- A type, its marks and single spaces included. -/
  | type (s : String)
deriving DecidableEq

namespace Token

def text : Token → String
  | word s | number s | mark s | type s => s
  | string body => "\"" ++ body ++ "\""
  | binary op => op.symbol

def marks : List String :=
  ["(", ")", "[[", "]]", "\x7b", "\x7d", ",", ";", ":", "::", "?", "++", "--", "+", "-", "!", "~"] ++
    assignSymbols

def Valid : Token → Prop
  | word s => Parser.IsWhole s
  | number s => ∃ n, wordNumber? s.toList = some n
  | string body => IsStringBody body
  | binary _ => True
  | mark s => s ∈ marks
  | type s => ∃ isConst, IsType isConst s

theorem forall_valid_mark {s : String} (hs : s ∈ marks) {ts : List Token}
    (hts : ∀ t ∈ ts, t.Valid) : ∀ t ∈ mark s :: ts, t.Valid :=
  List.forall_mem_cons.mpr ⟨hs, hts⟩

theorem forall_valid_word {s : String} (hs : Parser.IsWhole s) {ts : List Token}
    (hts : ∀ t ∈ ts, t.Valid) : ∀ t ∈ word s :: ts, t.Valid :=
  List.forall_mem_cons.mpr ⟨hs, hts⟩

theorem forall_valid_append {ts us : List Token} (hts : ∀ t ∈ ts, t.Valid)
    (hus : ∀ t ∈ us, t.Valid) : ∀ t ∈ ts ++ us, t.Valid :=
  List.forall_mem_append.mpr ⟨hts, hus⟩

theorem forall_valid_nil : ∀ t ∈ ([] : List Token), t.Valid := List.forall_mem_nil _

def IsSign (op : BinaryOp) : Prop := op = .add ∨ op = .sub

instance (op : BinaryOp) : Decidable (IsSign op) := inferInstanceAs (Decidable (_ ∨ _))

def Stops : Token → Char → Prop
  | word _, c | number _, c | type _, c => Text.isWord c
  | string _, _ => False
  | mark s, c => c ∈ continuations s
  | binary op, c => c ∈ continuations op.symbol ∨ IsSign op ∧ (c = '+' ∨ c = '-')

/-- The token stands in front of this text and ends there. -/
structure Ends (t : Token) (rest : List Char) : Prop where
  valid : t.Valid
  stop : ∀ c ∈ rest.head?, ¬ t.Stops c

end Token

inductive Gap : List Char → Prop where
  | nil : Gap []
  | blank {c : Char} {g : List Char} (h : Text.isBlank c) (hg : Gap g) : Gap (c :: g)
  | line {t g : List Char} (h : '\n' ∉ t) (hg : Gap g) : Gap ('/' :: '/' :: (t ++ '\n' :: g))
  | block {t g : List Char} (h : ¬ ['*', '/'] <:+: t ++ ['*']) (hg : Gap g) :
    Gap ('/' :: '*' :: (t ++ '*' :: '/' :: g))

theorem gap_space : Gap [' '] := .blank (by decide) .nil

section Layout

theorem skipLayout_line {t : List Char} (h : '\n' ∉ t) (cs : List Char) (l : Loc) :
    ∃ l', skipLayout .line l (t ++ '\n' :: cs) = skipLayout .code l' cs := by
  induction t generalizing l with
  | nil => exact ⟨_, rfl⟩
  | cons c t ih =>
    have hc : c ≠ '\n' := fun hc => h (hc ▸ .head _)
    obtain ⟨l', hskip⟩ := ih (fun ht => h (.tail _ ht)) (l.next c)
    exact ⟨l', by rw [List.cons_append, skipLayout, if_neg hc, hskip]⟩

theorem skipLayout_block {t : List Char} (h : ¬ ['*', '/'] <:+: t ++ ['*']) (cs : List Char)
    {o : Cursor} {mode : LayoutMode}
    (hmode : mode = .comment o ∨ mode = .star o ∧ ∀ c ∈ t.head?, c ≠ '/') (l : Loc) :
    ∃ l', skipLayout mode l (t ++ '*' :: '/' :: cs) = skipLayout .code l' cs := by
  induction t generalizing l mode with
  | nil =>
    refine ⟨(l.next '*').next '/', ?_⟩
    obtain rfl | ⟨rfl, _⟩ := hmode <;> simp [skipLayout]
  | cons c t ih =>
    have ht : ¬ ['*', '/'] <:+: t ++ ['*'] := fun hin => h (hin.trans (List.suffix_cons c _).isInfix)
    have hnext : c = '*' → ∀ d ∈ t.head?, d ≠ '/' := by
      rintro rfl d hd rfl
      obtain ⟨t', rfl⟩ := List.head?_eq_some_iff.mp hd
      exact h ⟨[], t' ++ ['*'], rfl⟩
    by_cases hc : c = '*'
    · obtain ⟨l', hskip⟩ := ih ht (.inr ⟨rfl, hnext hc⟩) (l.next c)
      refine ⟨l', ?_⟩
      obtain rfl | ⟨rfl, _⟩ := hmode
      · rw [List.cons_append, skipLayout, if_pos hc, hskip]
      · have hslash : c ≠ '/' := by
          rw [hc]
          decide
        rw [List.cons_append, skipLayout, if_neg hslash, if_pos hc, hskip]
    · obtain ⟨l', hskip⟩ := ih ht (.inl rfl) (l.next c)
      refine ⟨l', ?_⟩
      obtain rfl | ⟨rfl, hslash⟩ := hmode
      · rw [List.cons_append, skipLayout, if_neg hc, hskip]
      · rw [List.cons_append, skipLayout, if_neg (hslash c rfl), if_neg hc, hskip]

theorem skipLayout_gap {g : List Char} (h : Gap g) (cs : List Char) (l : Loc) :
    ∃ l', skipLayout .code l (g ++ cs) = skipLayout .code l' cs := by
  induction h generalizing l with
  | nil => exact ⟨l, rfl⟩
  | @blank c g hc _ ih =>
    obtain ⟨l', hskip⟩ := ih (l.next c)
    exact ⟨l', by rw [List.cons_append, skipLayout, if_pos hc, hskip]⟩
  | @line t g ht _ ih =>
    obtain ⟨l₁, hline⟩ := skipLayout_line ht (g ++ cs) ((l.next '/').next '/')
    obtain ⟨l', hskip⟩ := ih l₁
    refine ⟨l', ?_⟩
    rw [← hskip, ← hline]
    simp [skipLayout, (by decide : Text.isBlank '/' = false)]
  | @block t g ht _ ih =>
    let opened : Cursor := ⟨l, '/' :: '*' :: (t ++ '*' :: '/' :: (g ++ cs))⟩
    have hmode : LayoutMode.comment opened = .comment opened := rfl
    obtain ⟨l₁, hblock⟩ := skipLayout_block ht (g ++ cs) (.inl hmode) ((l.next '/').next '*')
    obtain ⟨l', hskip⟩ := ih l₁
    refine ⟨l', ?_⟩
    rw [← hskip, ← hblock]
    simp [skipLayout, opened, (by decide : Text.isBlank '/' = false)]

theorem skipLayout_slash {cs : List Char} (h : ∀ c ∈ cs.head?, c ≠ '/' ∧ c ≠ '*') (l : Loc) :
    skipLayout .code l ('/' :: cs) = ⟨l, '/' :: cs⟩ := by
  have hblank : Text.isBlank '/' = false := by decide
  cases cs with
  | nil => simp [skipLayout, hblank]
  | cons c cs =>
    obtain ⟨hslash, hstar⟩ := h c rfl
    simp [skipLayout, hblank, hslash, hstar]

end Layout

/-- A text that begins with some tokens, with `rest` behind them. Layout stands in front of each, and
`P` holds of each and of what is behind it. -/
inductive Spells (P : Token → List Char → Prop) : List Token → List Char → List Char → Prop where
  | nil (rest : List Char) : Spells P [] rest rest
  | cons {t : Token} {ts : List Token} {g m rest : List Char} (hg : Gap g) (ht : P t m)
    (hm : Spells P ts m rest) : Spells P (t :: ts) (g ++ (t.text.toList ++ m)) rest

namespace Spells

variable {P Q : Token → List Char → Prop} {t : Token} {ts us : List Token} {cs m r : List Char}

theorem mono (h : Spells P ts cs r) (hPQ : ∀ t ∈ ts, ∀ m, P t m → Q t m) : Spells Q ts cs r := by
  induction h with
  | nil r => exact .nil r
  | cons hg ht _ ih => exact .cons hg (hPQ _ (.head _) _ ht) (ih fun t h => hPQ t (.tail _ h))

theorem trans (h : Spells P ts cs m) (h' : Spells P us m r) : Spells P (ts ++ us) cs r := by
  induction h with
  | nil => exact h'
  | cons hg ht _ ih => exact .cons hg ht (ih h')

theorem exists_of_append (h : Spells P (ts ++ us) cs r) :
    ∃ m, Spells P ts cs m ∧ Spells P us m r := by
  induction ts generalizing cs with
  | nil => exact ⟨cs, .nil cs, h⟩
  | cons t ts ih =>
    cases h with
    | cons hg ht h =>
      obtain ⟨m, hts, hus⟩ := ih h
      exact ⟨m, .cons hg ht hts, hus⟩

theorem length_le (h : Spells P ts cs r) : r.length ≤ cs.length := by
  induction h with
  | nil => exact Nat.le_refl _
  | cons _ _ _ ih =>
    simp only [List.length_append]
    omega

theorem followed (h : Spells Token.Ends ts cs r) {w : List Char}
    (hw : ∀ t ∈ ts, ∀ c ∈ w.head?, ¬ t.Stops c) : Spells Token.Ends ts (cs ++ w) (r ++ w) := by
  induction h with
  | nil r => exact .nil _
  | @cons t ts g m r hg ht _ ih =>
    have hend : t.Ends (m ++ w) := by
      refine ⟨ht.valid, ?_⟩
      cases m with
      | nil => exact hw t (.head _)
      | cons c m => exact ht.stop
    rw [List.append_assoc, List.append_assoc]
    exact .cons hg hend (ih fun t h => hw t (.tail _ h))

end Spells

namespace Token

theorem text_ne_nil {t : Token} (h : t.Valid) : t.text.toList ≠ [] := by
  cases t with
  | word s => exact h.1
  | number s =>
    rintro hnil
    obtain ⟨n, hn⟩ := h
    obtain ⟨c, hc, _⟩ := Parser.head_of_wordNumber hn
    change s.toList = [] at hnil
    rw [hnil] at hc
    cases hc
  | string body => simp [text]
  | binary op => cases op <;> decide
  | mark s =>
    have hall : ∀ s ∈ marks, s.toList ≠ [] := by decide
    exact hall s h
  | type s =>
    obtain ⟨_, w, hw, _, rfl⟩ := h
    have hbase : ∀ s ∈ baseTypes, s.toList ≠ [] := by decide
    simp [text, TypeWords.text, hbase w.base hw.base]

theorem not_stops {t : Token} (h : t.Valid) {c : Char} (hword : Text.isWord c = false)
    (hmark : ∀ q ∈ punctuators, c ∉ q.toList.tail) : ¬ t.Stops c := by
  have hsymbol {s : String} (hs : s.toList ≠ []) : c ∉ continuations s := by
    intro hc
    obtain ⟨d, cs, hcs⟩ := List.exists_cons_of_ne_nil hs
    refine hmark _ (mem_continuations.mp hc) ?_
    rw [String.toList_ofList, hcs]
    exact List.mem_append_right _ (.head _)
  cases t with
  | word | number | type => simp [Stops, hword]
  | string => exact id
  | mark s => exact hsymbol (text_ne_nil h)
  | binary op =>
    rintro (hc | ⟨_, rfl | rfl⟩)
    · exact hsymbol (text_ne_nil h) hc
    · exact hmark "++" (by decide) (by decide)
    · exact hmark "--" (by decide) (by decide)

theorem skipLayout_text {t : Token} {m : List Char} (h : t.Ends m) (l : Loc) :
    skipLayout .code l (t.text.toList ++ m) = ⟨l, t.text.toList ++ m⟩ := by
  have hstop {cs : List Char} (hcs : ∃ c ∈ cs.head?, ¬ OpensLayout c) :
      skipLayout .code l (cs ++ m) = ⟨l, cs ++ m⟩ := by
    obtain ⟨c, hc, hopens⟩ := hcs
    obtain ⟨cs, rfl⟩ := List.head?_eq_some_iff.mp hc
    exact skipLayout_stop hopens l _
  have hword {c : Char} (hc : Text.isWord c) : ¬ OpensLayout c := fun hopens => by
    rw [hopens.not_isWord] at hc
    cases hc
  have hslash : ∀ c ∈ ['/', '*'], c ∈ continuations "/" := by decide
  cases t with
  | word s =>
    obtain ⟨c, cs, hcs⟩ := List.exists_cons_of_ne_nil h.valid.1
    exact hstop ⟨c, by simp [text, hcs], hword (h.valid.2 c (hcs ▸ .head _))⟩
  | number s =>
    obtain ⟨n, hn⟩ := h.valid
    obtain ⟨c, hc, hdigit⟩ := Parser.head_of_wordNumber hn
    exact hstop ⟨c, hc, not_opensLayout_of_isNamePart (isNamePart_of_isDigit hdigit)⟩
  | string body =>
    refine hstop ⟨'"', ?_, by decide⟩
    simp [text]
  | binary op =>
    by_cases hop : op = .div
    · subst hop
      refine skipLayout_slash (fun c hc => ⟨?_, ?_⟩) l
      · rintro rfl
        exact h.stop '/' hc (.inl (hslash _ (.head _)))
      · rintro rfl
        exact h.stop '*' hc (.inl (hslash _ (.tail _ (.head _))))
    · refine hstop ?_
      cases op <;> first | exact absurd rfl hop | decide
  | mark s =>
    by_cases hs : s = "/="
    · subst hs
      have hequals : ∀ c ∈ ('=' :: m).head?, c ≠ '/' ∧ c ≠ '*' := by
        rintro c ⟨⟩
        decide
      exact skipLayout_slash hequals l
    · have hall : ∀ s ∈ marks, s = "/=" ∨ ∃ c ∈ s.toList.head?, ¬ OpensLayout c := by decide
      exact hstop ((hall s h.valid).resolve_left hs)
  | type s =>
    obtain ⟨_, w, hw, _, rfl⟩ := h.valid
    obtain ⟨c, hc, hstart⟩ := hw.exists_head
    exact hstop ⟨c, hc, not_opensLayout_of_isNamePart (isNamePart_of_isNameStart hstart)⟩

end Token

section Front

variable {t : Token} {ts us : List Token} {cs m r : List Char}

def Stands (ts : List Token) (cs r : List Char) : Prop :=
  ∃ t us m, ts = t :: us ∧ cs = t.text.toList ++ m ∧ t.Ends m ∧ Spells Token.Ends us m r

theorem Stands.cons (h : Stands (t :: ts) cs r) :
    ∃ m, cs = t.text.toList ++ m ∧ t.Ends m ∧ Spells Token.Ends ts m r := by
  obtain ⟨_, _, m, hts, hcs, hm, hus⟩ := h
  obtain ⟨rfl, rfl⟩ := List.cons.inj hts
  exact ⟨m, hcs, hm, hus⟩

theorem Stands.exists_of_append (h : Stands (ts ++ us) cs r) (hne : ts ≠ []) :
    ∃ m, Stands ts cs m ∧ Spells Token.Ends us m r := by
  obtain ⟨t, ts, rfl⟩ := List.exists_cons_of_ne_nil hne
  obtain ⟨m, hcs, hm, hspells⟩ := Stands.cons h
  obtain ⟨m', hts, hus⟩ := hspells.exists_of_append
  exact ⟨m', ⟨t, ts, m, rfl, hcs, hm, hts⟩, hus⟩

theorem Stands.length_lt (h : Stands ts cs r) : r.length < cs.length := by
  obtain ⟨t, us, m, _, rfl, hm, hspells⟩ := h
  have hle := hspells.length_le
  have hpos := List.length_pos_iff.mpr (Token.text_ne_nil hm.valid)
  rw [List.length_append]
  omega

theorem Spells.layout (h : Spells Token.Ends (t :: ts) cs r) :
    ∃ cs', Stands (t :: ts) cs' r ∧ cs'.length ≤ cs.length ∧
      ∀ l, ∃ l', Parser.layout ⟨l, cs⟩ = some ((), ⟨l', cs'⟩) := by
  cases h with
  | @cons _ _ g m _ hg ht hspells =>
    refine ⟨t.text.toList ++ m, ⟨t, ts, m, rfl, rfl, ht, hspells⟩, ?_, fun l => ?_⟩
    · simp only [List.length_append]
      omega
    · obtain ⟨l', hskip⟩ := skipLayout_gap hg (t.text.toList ++ m) l
      refine ⟨l', ?_⟩
      show some ((), skipLayout .code l _) = _
      rw [hskip, Token.skipLayout_text ht]

def Next (t : Token) (r : List Char) : Prop := ∃ m, Spells Token.Ends [t] r m

theorem Spells.next (h : Spells Token.Ends (t :: ts) cs r) : Next t cs := by
  have happend : Spells Token.Ends ([t] ++ ts) cs r := h
  obtain ⟨m, ht, _⟩ := happend.exists_of_append
  exact ⟨m, ht⟩

end Front

def Token.separated (ts : List Token) : String := " ".intercalate (ts.map Token.text)

theorem stands_separated {t : Token} {ts : List Token} (hts : ∀ u ∈ t :: ts, u.Valid) :
    Stands (t :: ts) (Token.separated (t :: ts)).toList [] := by
  have htext (us : List Token) :
      (Token.separated us).toList = [' '].intercalate (us.map (·.text.toList)) := by
    rw [Token.separated, String.toList_intercalate, List.map_map]
    rfl
  induction ts generalizing t with
  | nil =>
    refine ⟨t, [], [], rfl, ?_, ⟨hts t (.head _), nofun⟩, .nil []⟩
    rw [htext]
    simp
  | cons u ts ih =>
    obtain ⟨m, hm, hend, hspells⟩ := (ih fun v hv => hts v (.tail _ hv)).cons
    have hspace : t.Ends (' ' :: (u.text.toList ++ m)) :=
      ⟨hts t (.head _), by
        rintro c ⟨⟩
        exact Token.not_stops (hts t (.head _)) (by decide) (by decide)⟩
    refine ⟨t, u :: ts, _, rfl, ?_, hspace, .cons gap_space hend hspells⟩
    rw [← hm, htext, htext]
    simp [List.intercalate_cons_cons]

end AttrCheck
