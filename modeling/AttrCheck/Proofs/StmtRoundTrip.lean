import AttrCheck.Proofs.StmtParts

/-! Statements are read back from their tokens. A statement that ends with an open conditional is
read only where no `else` is behind it; what a statement begins with tells that it is none. -/

namespace AttrCheck

namespace Stmt

/-- The statement is read where it stands, unless it is open and an `else` follows. -/
def Reads (s : Stmt) : Prop := ∀ n cs r, Stands s.tokens cs r → cs.length ≤ n →
  (s.IsOpen → Parser.Refuses (Parser.spaced (Parser.keyword "else")) r) →
    Parser.Takes (Parser.stmt (n + 1)) cs r (·.bare = s.bare)

variable {s sub : Stmt} {n : Nat} {m cs r : List Char} {ts : List Token}

theorem Written.tokens_ne_nil (h : s.Written) : s.tokens ≠ [] := by
  cases h with
  | expr => exact List.append_ne_nil_of_right_ne_nil _ nofun
  | @forLoop init => cases init <;> exact nofun
  | _ => exact nofun

theorem IsOpen.of_tails (h : sub.IsOpen) (hsub : sub.tails ⊆ s.tails) : s.IsOpen := by
  obtain ⟨c, yes, l, hmem⟩ := h
  exact ⟨c, yes, l, hsub hmem⟩

theorem annotation?_bare (s : Stmt) : s.bare.annotation? = none ↔ s.annotation? = none := by
  cases s with
  | ifElse c yes no l => cases no <;> simp [bare, annotation?]
  | forLoop init c step body l => cases init <;> simp [bare, annotation?]
  | _ => simp [bare, annotation?]

section Forms

theorem takes_form {ws : List String} {p : Parser Stmt} {P : Stmt → Prop} {k : Nat}
    {inner : Parser Stmt} (hp : (ws, p) ∈ Parser.wordForms k inner)
    (h : Parser.Takes p cs r P) : Parser.Takes (Parser.stmtWith k inner) cs r P := by
  have hmem : ((· ∈ ws), p) ∈ Parser.stmtForms k inner :=
    List.mem_append_left _ (List.mem_map_of_mem hp)
  intro l
  obtain ⟨s, l', hread, hP⟩ := h l
  exact ⟨s, l', Parser.stmtWith_eq_some hmem hread, hP⟩

theorem Reads.spaced (h : s.Reads) (hw : s.Written) (hspells : Spells Token.Ends s.tokens m r)
    (hlt : m.length < n)
    (helse : s.IsOpen → Parser.Refuses (Parser.spaced (Parser.keyword "else")) r) :
    Parser.Takes (Parser.spaced (Parser.stmt n)) m r (·.bare = s.bare) := by
  obtain ⟨n, rfl⟩ := Nat.exists_eq_add_of_le' (Nat.zero_lt_of_lt hlt)
  exact hspells.spaced hw.tokens_ne_nil fun cs' hcs' hle => h n cs' r hcs' (by omega) helse

theorem takes_condition {c : Expr} (hc : c.Written)
    (h : Spells Token.Ends (.mark "(" :: (c.tokens ++ [.mark ")"]) ++ ts) m r) (hn : m.length ≤ n) :
    ∃ m', Parser.Takes (Parser.condition n) m m' (·.bare = c.bare) ∧ Spells Token.Ends ts m' r ∧
      m'.length < m.length := by
  obtain ⟨m', hcond, hts⟩ := h.exists_of_append
  obtain ⟨cs', hstands, hle, _⟩ := hcond.takes_layout (List.cons_ne_nil _ _)
  have hlt := hstands.length_lt
  refine ⟨m', hcond.spaced (List.cons_ne_nil _ _) fun cs' hcs' hle => ?_, hts, by omega⟩
  refine hcs'.takes_parens fun m₁ hm₁ hlt₁ => ?_
  obtain ⟨m₂, hinner, hclose⟩ := hm₁.exists_of_append
  exact ⟨m₂, hclose, hc.takes_spaced hclose.next (by decide) hinner (by omega)⟩

theorem takes_head {word : String} {c : Expr} (hc : c.Written)
    (h : Stands (headTokens word c ++ ts) cs r) (hn : cs.length ≤ n) :
    ∃ m₁ m, Parser.Takes (Parser.keyword word) cs m₁ (fun _ => True) ∧
      Parser.Takes (Parser.condition n) m₁ m (·.bare = c.bare) ∧ Spells Token.Ends ts m r ∧
      m.length < cs.length := by
  obtain ⟨m₁, hm₁, hlt₁, hkeyword⟩ := h.takes fun m hend => Parser.takes_keyword hend
  obtain ⟨m, hread, hts, hlt⟩ := takes_condition hc hm₁ (n := n) (by omega)
  exact ⟨m₁, m, hkeyword, hread, hts, by omega⟩

end Forms

section Simple

variable {l : Loc}

theorem reads_null : (null l).Reads := by
  intro n cs r hstands hn _
  have hform : ([";"], Parser.nullStmt) ∈ Parser.wordForms (n + 1) (Parser.stmt n) := by
    simp [Parser.wordForms]
  have hread := hstands.takes_single fun m _ => Parser.takes_symbol ";" m
  exact takes_form hform (.here fun start => hread.bind fun _ _ => .pure rfl)

theorem takes_exprStmt {e : Expr} (he : e.Written) (hstands : Stands (e.tokens ++ [.mark ";"]) cs r)
    (hn : cs.length < n) :
    Parser.Takes (Parser.exprStmt n) cs r (·.bare = (Stmt.expr e l).bare) := by
  obtain ⟨u, us, hopener, _⟩ := he.exists_opener
  obtain ⟨m, hfirst, hm⟩ := hstands.exists_of_append (by simp [hopener])
  obtain ⟨_, hend, _, hclose⟩ := hm.takes fun m _ => Parser.takes_symbol ";" m
  cases hend
  have hread := he.takes hm.next (by decide) hfirst hn
  exact .here fun start => hread.bind fun e' he' => hclose.bind fun _ _ =>
    .pure (by simp only [bare, he'])

theorem reads_expr {e : Expr} (he : e.Written) : (expr e l).Reads := by
  intro n cs r hstands hn _ start
  obtain ⟨s', l', hread, hbare⟩ :=
    takes_exprStmt (l := l) he hstands (Nat.lt_succ_of_le hn) start
  have hform : ((· ∉ Parser.statementFronts), Parser.exprStmt (n + 1)) ∈
      Parser.stmtForms (n + 1) (Parser.stmt n) := List.mem_append_right _ (.head _)
  exact ⟨s', l', Parser.stmtWith_eq_some hform hread, hbare⟩

theorem takes_declStmt {d : VarDecl} (hd : d.Written) (hstands : Stands d.tokens cs r)
    (hn : cs.length < n) : Parser.Takes (Parser.declStmt n) cs r (·.bare = (Stmt.decl d).bare) :=
  (hd.takes hstands hn).bind fun d' hd' => .pure (by simp only [bare, hd'])

theorem reads_decl {d : VarDecl} (hd : d.Written) : (decl d).Reads := by
  intro n cs r hstands hn _
  have hform : (Parser.typeFronts, Parser.declStmt (n + 1)) ∈
      Parser.wordForms (n + 1) (Parser.stmt n) := by
    simp [Parser.wordForms]
  exact takes_form hform (takes_declStmt hd hstands (Nat.lt_succ_of_le hn))

theorem takes_wordStmt {word : String} {make : Loc → Stmt}
    (hmake : ∀ l l', (make l).bare = (make l').bare)
    (hstands : Stands [.word word, .mark ";"] cs r) :
    Parser.Takes (Parser.wordStmt word make) cs r (·.bare = (make l).bare) := by
  obtain ⟨m, hm, _, hword⟩ := hstands.takes fun m hend => Parser.takes_keyword hend
  obtain ⟨_, hend, _, hclose⟩ := hm.takes fun m _ => Parser.takes_symbol ";" m
  cases hend
  exact .here fun start => hword.bind fun _ _ => hclose.bind fun _ _ => .pure (hmake start l)

theorem reads_brk : (brk l).Reads := by
  intro n cs r hstands hn _
  have hform : (["break"], Parser.wordStmt "break" .brk) ∈
      Parser.wordForms (n + 1) (Parser.stmt n) := by
    simp [Parser.wordForms]
  exact takes_form hform (takes_wordStmt (fun _ _ => rfl) hstands)

theorem reads_cont : (cont l).Reads := by
  intro n cs r hstands hn _
  have hform : (["continue"], Parser.wordStmt "continue" .cont) ∈
      Parser.wordForms (n + 1) (Parser.stmt n) := by
    simp [Parser.wordForms]
  exact takes_form hform (takes_wordStmt (fun _ _ => rfl) hstands)

theorem takes_optional {o : Option Expr} (ho : ∀ e ∈ o, e.Written) {s : String}
    (hs : .mark s ∈ closers) (hm : Spells Token.Ends (Expr.optTokens o ++ .mark s :: ts) m r)
    (hn : m.length < n) : ∃ m', Spells Token.Ends (.mark s :: ts) m' r ∧ m'.length ≤ m.length ∧
      Parser.Takes (Parser.spaced (Parser.maybe (Parser.expr n))) m m'
        fun o' => o'.map Expr.bare = o.map Expr.bare := by
  cases o with
  | none =>
    have hall : ∀ t ∈ closers, ∃ c ∈ t.text.toList.head?, isNamePart c = false ∧
        c ∉ openingChars := by
      decide
    obtain ⟨m', hm', hle, hread⟩ := hm.leaves (p := Parser.maybe (Parser.expr n)) (P := (· = none))
      fun m _ => Parser.Refuses.maybe fun l => Parser.refuses_expr (hall _ hs) n l m
    exact ⟨m', hm', hle, hread.mono fun _ h => by rw [h]⟩
  | some e =>
    have he := ho e rfl
    obtain ⟨u, us, hopener, _⟩ := he.exists_opener
    obtain ⟨m', hfirst, hm'⟩ := hm.exists_of_append
    refine ⟨m', hm', hfirst.length_le, ?_⟩
    refine hfirst.spaced (by simp [Expr.optTokens, hopener]) fun cs' hcs' hle => ?_
    refine (he.takes hm'.next hs hcs' (by omega)).maybe.mono ?_
    rintro _ ⟨e', rfl, he'⟩
    rw [Option.map_some, Option.map_some, he']

theorem reads_ret {value : Option Expr} (hvalue : ∀ e ∈ value, e.Written) :
    (ret value l).Reads := by
  intro n cs r hstands hn _
  have hform : (["return"], Parser.returnStmt (n + 1)) ∈
      Parser.wordForms (n + 1) (Parser.stmt n) := by
    simp [Parser.wordForms]
  obtain ⟨m₁, hm₁, hlt₁, hword⟩ := hstands.takes fun m hend => Parser.takes_keyword hend
  obtain ⟨m₂, hm₂, _, hread⟩ := takes_optional hvalue (by decide) hm₁ (n := n + 1) (by omega)
  obtain ⟨_, hend, _, hclose⟩ := hm₂.takes fun m _ => Parser.takes_symbol ";" m
  cases hend
  exact takes_form hform (.here fun start => hword.bind fun _ _ => hread.bind fun value' hv =>
    hclose.bind fun _ _ => .pure (by simp only [bare, hv]))

end Simple

section Nested

variable {l : Loc} {c : Expr}

theorem refuses_keyword {word : String} (hword : Parser.IsWhole word) (hne : front cs ≠ word) :
    Parser.Refuses (Parser.keyword word) cs := by
  intro l
  cases hread : Parser.keyword word ⟨l, cs⟩ with
  | none => rfl
  | some x => exact absurd (Parser.begins_keyword hword _ x.1 x.2 hread) hne

theorem refuses_else_of_word {word : String} (hne : word ≠ "else") (hnext : Next (.word word) m) :
    Parser.Refuses (Parser.spaced (Parser.keyword "else")) m := by
  refine hnext.refuses fun m' hend => refuses_keyword (by decide) ?_
  have hfront : front (word.toList ++ m') = word := by
    rw [front_append hend.valid.1 hend.valid.2 (Parser.not_isWord_of_ends hend),
      String.ofList_toList]
  exact fun h => hne (hfront.symm.trans h)

theorem reads_ifThen {yes : Stmt} (hc : c.Written) (hyes : yes.Written) (ih : yes.Reads) :
    (ifElse c yes none l).Reads := by
  intro n cs r hstands hn helse
  have hform : (["if"], Parser.ifStmt (n + 1) (Parser.stmt n)) ∈
      Parser.wordForms (n + 1) (Parser.stmt n) := by
    simp [Parser.wordForms]
  obtain ⟨m₁, m₂, hword, hcond, hm₂, hlt⟩ := takes_head hc hstands (n := n + 1) (by omega)
  have hrefuses := helse ⟨c, yes, l, mem_tails_self _⟩
  have hthen := ih.spaced hyes hm₂ (n := n) (by omega) fun _ => hrefuses
  have hno : Parser.Takes (Parser.maybe do
      Parser.spaced (Parser.keyword "else")
      Parser.spaced (Parser.stmt n)) r r (· = none) := Parser.Refuses.maybe hrefuses.bind
  refine takes_form hform (.here fun start => hword.bind fun _ _ => hcond.bind fun c' hc' =>
    hthen.bind fun yes' hyes' => hno.bind fun no' hno' => .pure ?_)
  subst hno'
  simp only [bare, hc', hyes']

theorem reads_ifElse {yes no : Stmt} (hc : c.Written) (hyes : yes.Written) (hno : no.Written)
    (hclosed : ¬ yes.IsOpen) (ihyes : yes.Reads) (ihno : no.Reads) :
    (ifElse c yes (some no) l).Reads := by
  intro n cs r hstands hn helse
  have hform : (["if"], Parser.ifStmt (n + 1) (Parser.stmt n)) ∈
      Parser.wordForms (n + 1) (Parser.stmt n) := by
    simp [Parser.wordForms]
  obtain ⟨m₁, m₂, hword, hcond, hm₂, hlt⟩ := takes_head hc hstands (n := n + 1) (by omega)
  obtain ⟨m₃, hthen, hm₃⟩ := hm₂.exists_of_append
  have hle₃ := hthen.length_le
  obtain ⟨m₄, hm₄, hlt₄, helse'⟩ := hm₃.takes (p := Parser.keyword "else")
    fun m hend => Parser.takes_keyword hend
  have hopen : no.IsOpen → (ifElse c yes (some no) l).IsOpen := fun h =>
    h.of_tails (by simp [tails])
  have hreadyes := ihyes.spaced hyes hthen (n := n) (by omega) fun h => absurd h hclosed
  have hreadno := ihno.spaced hno hm₄ (n := n) (by omega) fun h => helse (hopen h)
  have hmaybe : Parser.Takes (Parser.maybe do
      Parser.spaced (Parser.keyword "else")
      Parser.spaced (Parser.stmt n)) m₃ r fun o => ∃ no', o = some no' ∧ no'.bare = no.bare :=
    (helse'.bind fun _ _ => hreadno).maybe
  refine takes_form hform (.here fun start => hword.bind fun _ _ => hcond.bind fun c' hc' =>
    hreadyes.bind fun yes' hyes' => hmaybe.bind fun o ho => .pure ?_)
  obtain ⟨no', rfl, hno'⟩ := ho
  simp only [bare, hc', hyes', hno']

theorem takes_conditionStmt {word : String} {make : Expr → Stmt → Loc → Stmt} {body : Stmt}
    (hmake : ∀ c body l, (make c body l).bare = make c.bare body.bare .unknown)
    (htails : ∀ c body l, body.tails ⊆ (make c body l).tails) (hc : c.Written)
    (hbody : body.Written) (ih : body.Reads)
    (hstands : Stands (headTokens word c ++ body.tokens) cs r) (hn : cs.length ≤ n)
    (helse : (make c body l).IsOpen → Parser.Refuses (Parser.spaced (Parser.keyword "else")) r) :
    Parser.Takes (Parser.conditionStmt (n + 1) (Parser.stmt n) word make) cs r
      (·.bare = (make c body l).bare) := by
  obtain ⟨m₁, m₂, hword, hcond, hm₂, hlt⟩ := takes_head hc hstands (n := n + 1) (by omega)
  have hread := ih.spaced hbody hm₂ (n := n) (by omega) fun h =>
    helse (h.of_tails (htails c body l))
  refine .here fun start => hword.bind fun _ _ => hcond.bind fun c' hc' =>
    hread.bind fun body' hbody' => .pure ?_
  rw [hmake, hmake, hc', hbody']

theorem reads_switch {body : Stmt} (hc : c.Written) (hbody : body.Written) (ih : body.Reads) :
    (switch c body l).Reads := by
  intro n cs r hstands hn helse
  have hform : (["switch"], Parser.conditionStmt (n + 1) (Parser.stmt n) "switch" .switch) ∈
      Parser.wordForms (n + 1) (Parser.stmt n) := by
    simp [Parser.wordForms]
  exact takes_form hform (takes_conditionStmt (fun _ _ _ => by rw [bare])
    (fun _ _ _ => by simp [tails]) hc hbody ih hstands hn helse)

theorem reads_whileLoop {body : Stmt} (hc : c.Written) (hbody : body.Written) (ih : body.Reads) :
    (whileLoop c body l).Reads := by
  intro n cs r hstands hn helse
  have hform : (["while"], Parser.conditionStmt (n + 1) (Parser.stmt n) "while" .whileLoop) ∈
      Parser.wordForms (n + 1) (Parser.stmt n) := by
    simp [Parser.wordForms]
  exact takes_form hform (takes_conditionStmt (fun _ _ _ => by rw [bare])
    (fun _ _ _ => by simp [tails]) hc hbody ih hstands hn helse)

theorem reads_caseLabel {value : Expr} (hvalue : value.Written) (hsub : sub.Written)
    (ih : sub.Reads) : (caseLabel value sub l).Reads := by
  intro n cs r hstands hn helse
  have hform : (["case"], Parser.caseStmt (n + 1) (Parser.stmt n)) ∈
      Parser.wordForms (n + 1) (Parser.stmt n) := by
    simp [Parser.wordForms]
  obtain ⟨m₁, hm₁, hlt₁, hword⟩ := hstands.takes fun m hend => Parser.takes_keyword hend
  obtain ⟨m₂, hfirst, hm₂⟩ := hm₁.exists_of_append
  have hle₂ := hfirst.length_le
  obtain ⟨m₃, hm₃, hlt₃, hcolon⟩ := hm₂.takes fun m _ => Parser.takes_symbol ":" m
  have hread := hvalue.takes_spaced hm₂.next (by decide) hfirst (n := n + 1) (by omega)
  have hreadsub := ih.spaced hsub hm₃ (n := n) (by omega) fun h =>
    helse (h.of_tails (by simp [tails]))
  exact takes_form hform (.here fun start => hword.bind fun _ _ => hread.bind fun value' hv =>
    hcolon.bind fun _ _ => hreadsub.bind fun sub' hs => .pure (by simp only [bare, hv, hs]))

theorem reads_defaultLabel (hsub : sub.Written) (ih : sub.Reads) : (defaultLabel sub l).Reads := by
  intro n cs r hstands hn helse
  have hform : (["default"], Parser.defaultStmt (Parser.stmt n)) ∈
      Parser.wordForms (n + 1) (Parser.stmt n) := by
    simp [Parser.wordForms]
  obtain ⟨m₁, hm₁, hlt₁, hword⟩ := hstands.takes fun m hend => Parser.takes_keyword hend
  obtain ⟨m₂, hm₂, hlt₂, hcolon⟩ := hm₁.takes fun m _ => Parser.takes_symbol ":" m
  have hreadsub := ih.spaced hsub hm₂ (n := n) (by omega) fun h =>
    helse (h.of_tails (by simp [tails]))
  exact takes_form hform (.here fun start => hword.bind fun _ _ => hcolon.bind fun _ _ =>
    hreadsub.bind fun sub' hs => .pure (by simp only [bare, hs]))

theorem reads_doWhile {body : Stmt} (hbody : body.Written) (hc : c.Written) (ih : body.Reads) :
    (doWhile body c l).Reads := by
  intro n cs r hstands hn helse
  have hform : (["do"], Parser.doStmt (n + 1) (Parser.stmt n)) ∈
      Parser.wordForms (n + 1) (Parser.stmt n) := by
    simp [Parser.wordForms]
  obtain ⟨m₁, hm₁, hlt₁, hword⟩ := hstands.takes fun m hend => Parser.takes_keyword hend
  obtain ⟨m₂, hfirst, hm₂⟩ := hm₁.exists_of_append
  have hle₂ := hfirst.length_le
  obtain ⟨m₃, hm₃, hlt₃, hwhile⟩ := hm₂.takes fun m hend => Parser.takes_keyword hend
  obtain ⟨m₄, hcond, hm₄, hlt₄⟩ := takes_condition hc hm₃ (n := n + 1) (by omega)
  obtain ⟨_, hend, _, hclose⟩ := hm₄.takes fun m _ => Parser.takes_symbol ";" m
  cases hend
  have hread := ih.spaced hbody hfirst (n := n) (by omega) fun _ =>
    refuses_else_of_word (by decide) hm₂.next
  exact takes_form hform (.here fun start => hword.bind fun _ _ => hread.bind fun body' hb =>
    hwhile.bind fun _ _ => hcond.bind fun c' hc' => hclose.bind fun _ _ =>
      .pure (by simp only [bare, hb, hc']))

end Nested

section Loops

variable {l : Loc} {body : Stmt}

theorem takes_loopInit {init : Option Stmt} (hinit : ∀ s ∈ init, s.Written)
    (hkind : ∀ s ∈ init, s.IsInit) (hm : Spells Token.Ends (initTokens init ++ ts) m r)
    (hn : m.length < n) : ∃ m', Spells Token.Ends ts m' r ∧ m'.length < m.length ∧
      Parser.Takes (Parser.spaced (Parser.loopInit n)) m m'
        fun init' => init'.map bare = init.map bare := by
  have hne : initTokens init ≠ [] := by
    cases init with
    | none => exact nofun
    | some s => exact (hinit s rfl).tokens_ne_nil
  obtain ⟨m', hfirst, hrest⟩ := hm.exists_of_append
  obtain ⟨_, hstands, hle, _⟩ := hfirst.takes_layout hne
  have hlt := hstands.length_lt
  refine ⟨m', hrest, by omega, hfirst.spaced hne fun cs' hcs' hle start => ?_⟩
  cases init with
  | none =>
    obtain ⟨_, l', hread, _⟩ := hcs'.takes_single (p := Parser.nullStmt) (P := fun _ => True)
      (fun m _ => .here fun l => (Parser.takes_symbol ";" m).bind fun _ _ => .pure trivial) start
    have hall : ";" ∉ Parser.typeFronts ∧ ";" ∈ Parser.statementFronts := by decide
    have hdecl : Parser.declStmt n ⟨start, cs'⟩ = none :=
      Parser.begins_nullStmt.eq_none Parser.begins_declStmt (by rintro _ rfl; exact hall.1) hread
    have hexpr : Parser.exprStmt n ⟨start, cs'⟩ = none :=
      Parser.begins_nullStmt.eq_none Parser.begins_exprStmt
        (by rintro _ rfl h; exact h hall.2) hread
    refine ⟨none, l', ?_, rfl⟩
    rw [Parser.loopInit, Parser.firstOf_of_none (Parser.map_of_eq_none hdecl some),
      Parser.firstOf_of_none (Parser.map_of_eq_none hexpr some)]
    exact Parser.firstOf_of_some (Parser.bind_of_eq_some hread) _
  | some s =>
    cases hinit s rfl with
    | decl hd =>
      obtain ⟨s', l', hread, hbare⟩ := takes_declStmt hd hcs' (n := n) (by omega) start
      have hsome : (some <$> Parser.declStmt n) ⟨start, cs'⟩ = some (some s', ⟨l', m'⟩) :=
        Parser.map_eq_some_iff.mpr ⟨s', hread, rfl⟩
      exact ⟨some s', l', Parser.firstOf_of_some hsome _, by
        rw [Option.map_some, Option.map_some, hbare]⟩
    | @expr e l he =>
      obtain ⟨s', l', hread, hbare⟩ := takes_exprStmt (l := l) he hcs' (n := n) (by omega) start
      have hdecl : Parser.declStmt n ⟨start, cs'⟩ = none := by
        have hall : ∀ w ∈ Parser.typeFronts, w ∈ Parser.statementFronts := by decide
        exact Parser.begins_exprStmt.eq_none Parser.begins_declStmt
          (fun w hw h => hw (hall w h)) hread
      refine ⟨some s', l', ?_, by rw [Option.map_some, Option.map_some, hbare]⟩
      rw [Parser.loopInit, Parser.firstOf_of_none (Parser.map_of_eq_none hdecl some)]
      exact Parser.firstOf_of_some (Parser.map_eq_some_iff.mpr ⟨s', hread, rfl⟩) _
    | _ => exact absurd (hkind _ rfl) id

theorem reads_forLoop {init : Option Stmt} {c step : Option Expr} (hinit : ∀ s ∈ init, s.Written)
    (hkind : ∀ s ∈ init, s.IsInit) (hc : ∀ e ∈ c, e.Written) (hstep : ∀ e ∈ step, e.Written)
    (hbody : body.Written) (ih : body.Reads) : (forLoop init c step body l).Reads := by
  intro n cs r hstands hn helse
  have hform : (["for"], Parser.rangeForStmt (n + 1) (Parser.stmt n) <|>
      Parser.forStmt (n + 1) (Parser.stmt n)) ∈ Parser.wordForms (n + 1) (Parser.stmt n) := by
    simp [Parser.wordForms]
  rw [tokens_forLoop] at hstands
  obtain ⟨m₁, hm₁, hlt₁, hword⟩ := hstands.takes fun m hend => Parser.takes_keyword hend
  obtain ⟨m₂, hm₂, hlt₂, hopen⟩ := hm₁.takes fun m _ => Parser.takes_symbol "(" m
  obtain ⟨m₃, hm₃, hlt₃, hfirst⟩ := takes_loopInit hinit hkind hm₂ (n := n + 1) (by omega)
  obtain ⟨m₄, hm₄, hle₄, hcond⟩ := takes_optional hc (by decide) hm₃ (n := n + 1) (by omega)
  obtain ⟨m₅, hm₅, hlt₅, hmiddle⟩ := hm₄.takes fun m _ => Parser.takes_symbol ";" m
  obtain ⟨m₆, hm₆, hle₆, hlast⟩ := takes_optional hstep (by decide) hm₅ (n := n + 1) (by omega)
  obtain ⟨m₇, hm₇, hlt₇, hclose⟩ := hm₆.takes fun m _ => Parser.takes_symbol ")" m
  have htails : body.tails ⊆ (forLoop init c step body l).tails := by simp [tails]
  have hread := ih.spaced hbody hm₇ (n := n) (by omega) fun h => helse (h.of_tails htails)
  have hfor : Parser.Takes (Parser.forStmt (n + 1) (Parser.stmt n)) cs r
      (·.bare = (forLoop init c step body l).bare) :=
    .here fun start => hword.bind fun _ _ => hopen.bind fun _ _ => hfirst.bind fun init' hi =>
      hcond.bind fun c' hc' => hmiddle.bind fun _ _ => hlast.bind fun step' hs =>
        hclose.bind fun _ _ => hread.bind fun body' hb => .pure (by
          rw [bare_forLoop, bare_forLoop, hi, hc', hs, hb])
  refine takes_form hform fun start => ?_
  obtain ⟨s', l', hs', hbare⟩ := hfor start
  exact ⟨s', l', (Parser.choice_of_none (Parser.rangeForStmt_eq_none hs') _).trans hs', hbare⟩

theorem reads_rangeFor {var typeName : String} {range : Expr} {isConst : Bool} (hvar : IsName var)
    (htype : IsType isConst typeName) (hrange : range.Written) (hbody : body.Written)
    (ih : body.Reads) : (rangeFor var range body typeName l).Reads := by
  intro n cs r hstands hn helse
  have hform : (["for"], Parser.rangeForStmt (n + 1) (Parser.stmt n) <|>
      Parser.forStmt (n + 1) (Parser.stmt n)) ∈ Parser.wordForms (n + 1) (Parser.stmt n) := by
    simp [Parser.wordForms]
  obtain ⟨m₁, hm₁, hlt₁, hword⟩ := hstands.takes fun m hend => Parser.takes_keyword hend
  obtain ⟨m₂, hm₂, hlt₂, hopen⟩ := hm₁.takes fun m _ => Parser.takes_symbol "(" m
  obtain ⟨m₃, hm₃, hle₃, hlayout⟩ := hm₂.takes_layout (List.cons_ne_nil _ _)
  obtain ⟨m₄, hm₄, hlt₄, hreadtype⟩ := takes_type htype hvar hm₃ (n := n + 1) (by omega)
  obtain ⟨m₅, hm₅, hlt₅, hname⟩ := hm₄.takes (P := (· = var)) fun m hend =>
    Parser.takes_name hend hvar
  obtain ⟨m₆, hm₆, hlt₆, hcolon⟩ := hm₅.takes fun m _ => Parser.takes_symbol ":" m
  obtain ⟨m₇, hfirst, hm₇⟩ := hm₆.exists_of_append
  have hle₇ := hfirst.length_le
  obtain ⟨m₈, hm₈, hlt₈, hclose⟩ := hm₇.takes fun m _ => Parser.takes_symbol ")" m
  have hreadrange := hrange.takes_spaced hm₇.next (by decide) hfirst (n := n + 1) (by omega)
  have htails : body.tails ⊆ (rangeFor var range body typeName l).tails := by simp [tails]
  have hread := ih.spaced hbody hm₈ (n := n) (by omega) fun h => helse (h.of_tails htails)
  have hfor : Parser.Takes (Parser.rangeForStmt (n + 1) (Parser.stmt n)) cs r
      (·.bare = (rangeFor var range body typeName l).bare) := by
    refine .here fun start => hword.bind fun _ _ => hopen.bind fun _ _ =>
      (hlayout.bind fun _ _ => hreadtype).bind fun _ ht => hname.bind fun _ hv =>
        hcolon.bind fun _ _ => hreadrange.bind fun range' hr => hclose.bind fun _ _ =>
          hread.bind fun body' hb => .pure ?_
    subst ht hv
    simp only [bare, hr, hb]
  refine takes_form hform fun start => ?_
  obtain ⟨s', l', hs', hbare⟩ := hfor start
  exact ⟨s', l', Parser.choice_of_some hs' _, hbare⟩

end Loops

section Lists

variable {l : Loc} {body : List Stmt}

theorem takes_statements (hbody : ∀ s ∈ body, s.Written) (ih : ∀ s ∈ body, s.Reads) {k : Nat}
    (hstands : Stands (allTokens body ++ [.mark "\x7d"]) cs r) (hn : cs.length < n) (hk : n ≤ k) :
    front cs ≠ "else" ∧ ∃ m, Stands [.mark "\x7d"] m r ∧
      Parser.Takes (Parser.many (Parser.stmt n <* Parser.layout) k) cs m
        fun body' => bareAll body' = bareAll body := by
  have hround : Parser.Consumes (Parser.stmt n <* Parser.layout) :=
    (Parser.consumes_stmt n).seqLeft Parser.advances_layout
  induction body generalizing cs with
  | nil =>
    obtain ⟨m, rfl, _⟩ := hstands.cons
    have hfront : front ((Token.mark "\x7d").text.toList ++ m) = "\x7d" := front_cons (by decide)
    refine ⟨by rw [hfront]; decide, _, hstands, ?_⟩
    have hrefuses : Parser.Refuses (Parser.stmt n <* Parser.layout)
        ((Token.mark "\x7d").text.toList ++ m) := by
      refine Parser.Refuses.bind fun start => ?_
      cases hread : Parser.stmt n ⟨start, (Token.mark "\x7d").text.toList ++ m⟩ with
      | none => rfl
      | some x =>
        have hbegins := Parser.begins_stmt n _ x.1 x.2 hread
        exact absurd (hfront ▸ List.mem_cons_self) hbegins
    exact (hrefuses.many k).mono fun _ h => by rw [h]
  | cons s ss ihss =>
    obtain ⟨n, rfl⟩ := Nat.exists_eq_add_of_le' (Nat.zero_lt_of_lt hn)
    rw [allTokens, List.append_assoc] at hstands
    obtain ⟨m₁, hfirst, hrest⟩ := hstands.exists_of_append (hbody s (.head _)).tokens_ne_nil
    have hlt₁ := hfirst.length_lt
    obtain ⟨m₂, hm₂, hle₂, hlayout⟩ := hrest.takes_layout
      (List.append_ne_nil_of_right_ne_nil _ nofun)
    obtain ⟨hnext, m, hm, hmany⟩ := ihss (fun t ht => hbody t (.tail _ ht))
      (fun t ht => ih t (.tail _ ht)) hm₂ (by omega)
    have helse : Parser.Refuses (Parser.spaced (Parser.keyword "else")) m₁ := by
      intro start
      obtain ⟨_, l', hl', _⟩ := hlayout start
      exact (Parser.bind_of_eq_some hl').trans (refuses_keyword (by decide) hnext l')
    have hread := ih s (.head _) n cs m₁ hfirst (by omega) fun _ => helse
    refine ⟨fun hfront => ?_, m, hm, ?_⟩
    · obtain ⟨s', l', hs', _⟩ := hread Loc.unknown
      exact Parser.begins_stmt _ _ s' _ hs' (hfront ▸ .tail _ (.head _))
    · refine (Parser.Takes.many hround (hread.bind fun s' hs' => hlayout.bind fun _ _ => .pure hs')
        hmany (by omega)).mono ?_
      rintro _ ⟨s', ss', rfl, hs', hss'⟩
      rw [bareAll, bareAll, hs', hss']

theorem takes_compoundStmt (hbody : ∀ s ∈ body, s.Written) (ih : ∀ s ∈ body, s.Reads) {k : Nat}
    (hstands : Stands (compound body l).tokens cs r) (hn : cs.length ≤ n) (hk : n ≤ k) :
    Parser.Takes (Parser.compoundStmt k (Parser.stmt n)) cs r
      (·.bare = (compound body l).bare) := by
  obtain ⟨m₁, hm₁, hlt₁, hopen⟩ := hstands.takes fun m _ => Parser.takes_symbol "\x7b" m
  obtain ⟨m₂, hm₂, hle₂, hlayout⟩ := hm₁.takes_layout (List.append_ne_nil_of_right_ne_nil _ nofun)
  obtain ⟨_, m₃, hm₃, hread⟩ := takes_statements hbody ih hm₂ (n := n) (by omega) hk
  have hclose := hm₃.takes_single fun m _ => Parser.takes_symbol "\x7d" m
  exact .here fun start => hopen.bind fun _ _ => hlayout.bind fun _ _ => hread.bind fun body' hb =>
    hclose.bind fun _ _ => .pure (by simp only [bare, hb])

theorem reads_compound (hbody : ∀ s ∈ body, s.Written) (ih : ∀ s ∈ body, s.Reads) :
    (compound body l).Reads := by
  intro n cs r hstands hn _
  have hform : (["\x7b"], Parser.compoundStmt (n + 1) (Parser.stmt n)) ∈
      Parser.wordForms (n + 1) (Parser.stmt n) := by
    simp [Parser.wordForms]
  exact takes_form hform (takes_compoundStmt hbody ih hstands hn (Nat.le_succ n))

end Lists

section Annotated

variable {l : Loc} {attrs : List RawAttr} {range : Range}

theorem refuses_anySpecifier (hplain : sub.annotation? = none)
    (hread : Parser.Takes (Parser.stmt n) cs r (·.bare = sub.bare)) {k : Nat} :
    Parser.Refuses (Parser.anySpecifier k (Parser.expr k)) cs := by
  intro start
  cases hspec : Parser.anySpecifier k (Parser.expr k) ⟨start, cs⟩ with
  | none => rfl
  | some x =>
    obtain ⟨s', l', hs', hbare⟩ := hread start
    have hfront := Parser.begins_anySpecifier _ x.1 x.2 hspec
    cases n with
    | zero => cases hs'
    | succ n =>
      have hannotated := Parser.annotatedStmt_of_front hs' hfront
      obtain ⟨spec, _, _, hannotated⟩ := Parser.bind_eq_some_iff.mp hannotated
      obtain ⟨sub', _, _, hannotated⟩ := Parser.bind_eq_some_iff.mp hannotated
      obtain ⟨rfl, _⟩ := Parser.pure_eq_some_iff.mp hannotated
      rw [← annotation?_bare, ← hbare] at hplain
      cases hplain

theorem reads_annotated (hattrs : ∀ a ∈ attrs, a.Written) (hsub : sub.Written) (ih : sub.Reads)
    (hplain : sub.annotation? = none) : (annotated attrs sub range l).Reads := by
  intro n cs r hstands hn helse
  have hform : (Parser.specifierFronts, Parser.annotatedStmt (n + 1) (Parser.stmt n)) ∈
      Parser.wordForms (n + 1) (Parser.stmt n) := by
    simp [Parser.wordForms]
  obtain ⟨m₁, hm₁, hlt₁, hspec⟩ := takes_bracketSpecifier hattrs hstands (n := n + 1) (by omega)
  obtain ⟨m₂, hm₂, hle₂, hlayout⟩ := hm₁.takes_layout hsub.tokens_ne_nil
  have htails : sub.tails ⊆ (annotated attrs sub range l).tails := by simp [tails]
  have hread : Parser.Takes (Parser.stmt n) m₂ r (·.bare = sub.bare) := by
    obtain ⟨n, rfl⟩ := Nat.exists_eq_add_of_le' (show 0 < n by omega)
    exact ih n m₂ r hm₂ (by omega) fun h => helse (h.of_tails htails)
  have hnone : Parser.Refuses
      (Parser.spaced (Parser.anySpecifier (n + 1) (Parser.expr (n + 1)))) m₁ := by
    intro start
    obtain ⟨_, l', hl', _⟩ := hlayout start
    exact (Parser.bind_of_eq_some hl').trans (refuses_anySpecifier hplain hread l')
  have hfirst : Parser.Takes (Parser.anySpecifier (n + 1) (Parser.expr (n + 1))) cs m₁
      fun spec => spec.attrs.map RawAttr.bare = attrs.map RawAttr.bare := by
    intro start
    obtain ⟨spec, l', hs, has⟩ := hspec start
    have hmem : ((· = "["), Parser.bracketSpecifier (n + 1) (Parser.expr (n + 1))) ∈
        Parser.specifierForms (n + 1) (Parser.expr (n + 1)) := .head _
    exact ⟨spec, l', Parser.anySpecifier_eq_some hmem hs, has⟩
  have hall : Parser.Takes (Parser.specifiers (n + 1) (Parser.expr (n + 1))) cs m₁
      fun spec => spec.attrs.map RawAttr.bare = attrs.map RawAttr.bare := by
    refine hfirst.bind fun spec has => (hnone.many (n + 1)).bind fun more hmore => .pure ?_
    subst hmore
    simpa using has
  exact takes_form hform (hall.bind fun spec has => (hlayout.bind fun _ _ => hread).bind
    fun sub' hs => .pure (by simp only [bare, has, hs]))

end Annotated

/-- Statements are read back from their tokens. -/
theorem Written.reads (h : s.Written) : s.Reads := by
  induction h with
  | null => exact reads_null
  | compound hbody ih => exact reads_compound hbody ih
  | expr he => exact reads_expr he
  | decl hd => exact reads_decl hd
  | ret hvalue => exact reads_ret hvalue
  | brk => exact reads_brk
  | cont => exact reads_cont
  | ifThen hc hyes ih => exact reads_ifThen hc hyes ih
  | ifElse hc hyes hno hclosed ihyes ihno => exact reads_ifElse hc hyes hno hclosed ihyes ihno
  | switch hc hbody ih => exact reads_switch hc hbody ih
  | caseLabel hvalue hsub ih => exact reads_caseLabel hvalue hsub ih
  | defaultLabel hsub ih => exact reads_defaultLabel hsub ih
  | forLoop hinit hkind hc hstep hbody _ ih => exact reads_forLoop hinit hkind hc hstep hbody ih
  | rangeFor isConst hvar htype hrange hbody ih => exact reads_rangeFor hvar htype hrange hbody ih
  | whileLoop hc hbody ih => exact reads_whileLoop hc hbody ih
  | doWhile hbody hc ih => exact reads_doWhile hbody hc ih
  | annotated hattrs hsub hplain ih => exact reads_annotated hattrs hsub ih hplain

end Stmt

end AttrCheck
