import AttrCheck.Proofs.ExprLayers

/-! Expressions are read back from their tokens. Each layer of the grammar reads the expressions that
bind as tightly as it does or tighter, if what stands behind them binds looser; a layer that joins its
operands from the left goes on behind such an expression with what it would read there. -/

namespace AttrCheck

def closers : List Token := [.mark ")", .mark ",", .mark ";", .mark ":"]

theorem follows_of_closer {t : Token} (h : t ∈ closers) : t.Follows := by
  have hall : ∀ s ∈ [")", ",", ";", ":"], s ∈ followers := by decide
  obtain ⟨s, hs, rfl⟩ : ∃ s ∈ [")", ",", ";", ":"], .mark s = t := List.mem_map.mp h
  exact hall s hs

theorem bond_of_closer {t : Token} (h : t ∈ closers) : t.bond = 0 := by
  have hall : ∀ t ∈ closers, t.bond = 0 := by decide
  exact hall t h

namespace Expr

/-- Behind the expression, a parser that began at `l` goes on as `next l` does. -/
def ReadsOn (p : Parser Expr) (next : Loc → Expr → Parser Expr) (e : Expr)
    (cs r : List Char) : Prop :=
  ∀ l, ∃ e' l', e'.bare = e.bare ∧ p ⟨l, cs⟩ = next l e' ⟨l', r⟩

/-- The expression stands in front, with a token behind it, of a text that an allowance suffices
for. -/
structure Placed (e : Expr) (n : Nat) (t : Token) (cs r : List Char) : Prop where
  stands : Stands e.tokens cs r
  length : cs.length ≤ n
  next : Next t r
  follows : t.Follows

def ReadsPrimary (e : Expr) : Prop := ∀ n cs r, Stands e.tokens cs r → cs.length ≤ n →
  Parser.Takes (Parser.primary (Parser.expr n)) cs r (·.bare = e.bare)

def ReadsBack (e : Expr) : Prop := ∀ n cs r, Stands e.tokens cs r → cs.length ≤ n →
  e.ReadsOn (Parser.postfixExpr (n + 1) (Parser.expr n)) (Parser.backs (n + 1) (Parser.expr n)) cs r

def ReadsChain (k : Nat) (e : Expr) : Prop := ∀ n t cs r, e.Placed n t cs r → t.bond ≤ 3 + k →
  e.ReadsOn (Parser.chain (n + 1) (Parser.expr n) (binaryLevels.drop k))
    (Parser.links (n + 1) (Parser.expr n) (levelAt k) (binaryLevels.drop (k + 1))) cs r

def ReadsTernary (e : Expr) : Prop := ∀ n t cs r, e.Placed n t cs r → t.bond < 2 →
  Parser.Takes (Parser.ternary (n + 1) (Parser.expr n)) cs r (·.bare = e.bare)

def ReadsWhole (e : Expr) : Prop := ∀ n t cs r, e.Placed n t cs r → t.bond = 0 →
  Parser.Takes (Parser.expr (n + 1)) cs r (·.bare = e.bare)

structure Readable (e : Expr) : Prop where
  back : 14 ≤ e.rank → e.ReadsBack
  chain : ∀ k ≤ 10, 3 + k ≤ e.rank → e.ReadsChain k
  ternary : 2 ≤ e.rank → e.ReadsTernary
  whole : e.ReadsWhole

variable {e : Expr} {n k : Nat} {t : Token} {cs r : List Char}

theorem ReadsOn.takes {p : Parser Expr} {next : Loc → Expr → Parser Expr}
    (h : e.ReadsOn p next cs r) (hstop : ∀ l e' l', next l e' ⟨l', r⟩ = some (e', ⟨l', r⟩)) :
    Parser.Takes p cs r (·.bare = e.bare) := by
  intro l
  obtain ⟨e', l', hbare, hread⟩ := h l
  exact ⟨e', l', hread.trans (hstop l e' l'), hbare⟩

section Layers

theorem ReadsPrimary.back (h : e.ReadsPrimary) : e.ReadsBack := by
  intro n cs r hstands hn l
  obtain ⟨e', l', hread, hbare⟩ := h n cs r hstands hn l
  refine ⟨e', l', hbare, ?_⟩
  rw [Parser.postfixExpr, Parser.bind_here_apply, Parser.bind_of_eq_some hread]
  rfl

theorem links_stop (hk : k ≤ 10) (hp : e.Placed n t cs r) (hbond : k < 10 → t.bond ≠ 3 + k)
    (tighter : List (List (BinaryOp × List Char))) (l : Loc) (e' : Expr) (l' : Loc) :
    Parser.links (n + 1) (Parser.expr n) (levelAt k) tighter l e' ⟨l', r⟩ =
      some (e', ⟨l', r⟩) :=
  Parser.onward_stop (Parser.refuses_link hp.follows hp.next _ _ hk hbond _ l') e'

theorem ReadsChain.takes (h : e.ReadsChain k) (hk : k ≤ 10) (hp : e.Placed n t cs r)
    (hbond : t.bond < 3 + k) :
    Parser.Takes (Parser.chain (n + 1) (Parser.expr n) (binaryLevels.drop k)) cs r
      (·.bare = e.bare) :=
  (h n t cs r hp (Nat.le_of_lt hbond)).takes (links_stop hk hp (fun _ => Nat.ne_of_lt hbond) _)

theorem ReadsBack.chain (h : e.ReadsBack) (hw : e.Written) (hrank : 14 ≤ e.rank) :
    e.ReadsChain 10 := by
  intro n t cs r hp hbond l
  obtain ⟨u, us, htokens, hopens, hfront⟩ := hw.exists_opener
  have hstands := hp.stands
  rw [htokens] at hstands
  obtain ⟨m, rfl, hend, _⟩ := hstands.cons
  obtain ⟨e', l', hbare, hread⟩ := h n _ r hp.stands hp.length l
  have hback : t.bond ≠ 14 := by omega
  have hstop : Parser.backs (n + 1) (Parser.expr n) l e' ⟨l', r⟩ = some (e', ⟨l', r⟩) :=
    Parser.onward_stop (Parser.refuses_postfixOp hp.follows hp.next _ _ hback l') e'
  have hunary : Parser.unary (n + 1) (Parser.expr n) ⟨l, u.text.toList ++ m⟩ =
      Parser.postfixExpr (n + 1) (Parser.expr n) ⟨l, u.text.toList ++ m⟩ :=
    Parser.unary_of_none (Token.frontOp_eq_none hopens hend (hfront hrank) l)
  have hchain : Parser.chain (n + 1) (Parser.expr n) (binaryLevels.drop 10) =
    Parser.unary (n + 1) (Parser.expr n) := Parser.chain_nil
  refine ⟨e', l', hbare, ?_⟩
  rw [hchain, hunary, hread, hstop,
    links_stop (Nat.le_refl 10) hp fun h => absurd h (Nat.lt_irrefl 10)]

theorem ReadsChain.looser (h : e.ReadsChain (k + 1)) (hk : k < 10) : e.ReadsChain k := by
  intro n t cs r hp hbond l
  obtain ⟨e', l', hread, hbare⟩ := h.takes hk hp (Nat.lt_succ_of_le hbond) l
  refine ⟨e', l', hbare, ?_⟩
  rw [drop_binaryLevels hk, Parser.chain_cons, Parser.bind_of_eq_some hread]

theorem ReadsChain.of_le (h : e.ReadsChain k) (hk : k ≤ 10) {j : Nat} (hj : j ≤ k) :
    e.ReadsChain j := by
  obtain ⟨d, rfl⟩ := Nat.exists_eq_add_of_le hj
  induction d with
  | zero => exact h
  | succ d ih => exact ih (h.looser (k := j + d) (by omega)) (by omega) (Nat.le_add_right j d)

theorem ReadsChain.ternary (h : e.ReadsChain 0) : e.ReadsTernary := by
  intro n t cs r hp hbond l
  obtain ⟨e', l', hread, hbare⟩ := h.takes (Nat.zero_le 10) hp (by omega) l
  refine ⟨e', l', ?_, hbare⟩
  have hquestion := Parser.refuses_question hp.follows hp.next (by omega) l'
  rw [Parser.ternary_apply]
  exact (Parser.bind_of_eq_some hread).trans (Parser.armsFrom_stop hquestion)

theorem ReadsTernary.whole (h : e.ReadsTernary) : e.ReadsWhole := by
  intro n t cs r hp hbond l
  obtain ⟨e', l', hread, hbare⟩ := h n t cs r hp (by omega) l
  have hassign := Parser.refuses_assignOp hp.follows hp.next (by omega) l'
  exact ⟨e', l', Parser.exprWith_of_ternary hread hassign, hbare⟩

end Layers

namespace Readable

theorem of_whole (h : e.ReadsWhole) (hrank : e.rank < 2) : e.Readable where
  back hback := by omega
  chain k _ hchain := by omega
  ternary hternary := by omega
  whole := h

theorem of_ternary (h : e.ReadsTernary) (hrank : e.rank < 3) : e.Readable where
  back hback := by omega
  chain k _ hchain := by omega
  ternary _ := h
  whole := h.whole

theorem of_chain (h : e.ReadsChain k) (hk : k ≤ 10) (hrank : e.rank = 3 + k) : e.Readable where
  back hback := by omega
  chain _ _ hchain := h.of_le hk (by omega)
  ternary _ := (h.of_le hk (Nat.zero_le k)).ternary
  whole := (h.of_le hk (Nat.zero_le k)).ternary.whole

theorem of_back (h : e.ReadsBack) (hw : e.Written) (hrank : 14 ≤ e.rank) : e.Readable where
  back _ := h
  chain _ hj _ := (h.chain hw hrank).of_le (Nat.le_refl 10) hj
  ternary _ := ((h.chain hw hrank).of_le (Nat.le_refl 10) (Nat.zero_le 10)).ternary
  whole := ((h.chain hw hrank).of_le (Nat.le_refl 10) (Nat.zero_le 10)).ternary.whole

end Readable

theorem ReadsWhole.spaced (h : e.ReadsWhole) (hw : e.Written) (hspells : Spells Token.Ends e.tokens cs r)
    (hn : cs.length < n) (hnext : Next t r) (hfollows : t.Follows) (hbond : t.bond = 0) :
    Parser.Takes (Parser.spaced (Parser.expr n)) cs r (·.bare = e.bare) := by
  obtain ⟨n, rfl⟩ := Nat.exists_eq_add_of_le' (Nat.zero_lt_of_lt hn)
  obtain ⟨u, us, htokens, _⟩ := hw.exists_opener
  refine hspells.spaced (by simp [htokens]) fun cs' hstands hle => ?_
  exact h n t cs' r ⟨hstands, by omega, hnext, hfollows⟩ hbond

section Forms

variable {l : Loc}

theorem readsPrimary_number {s : String} {v : Nat} (h : wordNumber? s.toList = some v) (l : Loc) :
    (Expr.int v s l).ReadsPrimary := by
  intro n cs r hstands _
  rw [tokens_number h] at hstands
  refine hstands.takes_single fun m hend start => ?_
  have hword : ∀ c ∈ m.head?, Text.isWord c = false :=
    fun c hc => Bool.eq_false_iff.mpr (hend.stop c hc)
  exact ⟨_, _, Parser.primary_of_number (Parser.number_append h hword), rfl⟩

theorem readsPrimary_string {s : String} (h : IsStringBody s) (l : Loc) :
    (Expr.string s l).ReadsPrimary := by
  intro n cs r hstands _
  refine hstands.takes_single (t := .string s) fun m _ start => ?_
  exact ⟨_, _, Parser.primary_of_string (Parser.stringLiteral_append h), rfl⟩

theorem readsPrimary_yes (l : Loc) : (Expr.int 1 "true" l).ReadsPrimary := by
  intro n cs r hstands _
  rw [tokens, if_pos (by decide)] at hstands
  refine hstands.takes_single fun m hend start => ?_
  have hyes := Parser.theWord_append (l := start) "true" (Parser.not_isWord_of_ends hend)
  have hbool : Parser.boolWord ⟨start, "true".toList ++ m⟩ =
      some ((1, "true"), ⟨start.after "true".toList, m⟩) :=
    Parser.firstOf_of_some (Parser.bind_of_eq_some hyes) _
  exact ⟨_, _, Parser.primary_of_bool hbool, rfl⟩

theorem readsPrimary_no (l : Loc) : (Expr.int 0 "false" l).ReadsPrimary := by
  intro n cs r hstands _
  rw [tokens, if_pos (by decide)] at hstands
  refine hstands.takes_single fun m hend start => ?_
  have hno := Parser.theWord_append (l := start) "false" (Parser.not_isWord_of_ends hend)
  have hyes : Parser.theWord "true" ⟨start, "false".toList ++ m⟩ = none :=
    (Parser.begins_theWord (s := "false") (by decide)).eq_none
      (Parser.begins_theWord (s := "true") (by decide)) (by rintro _ rfl; decide) hno
  have hbool : Parser.boolWord ⟨start, "false".toList ++ m⟩ =
      some ((0, "false"), ⟨start.after "false".toList, m⟩) :=
    (Parser.firstOf_of_none (Parser.bind_of_eq_none hyes _) _).trans
      (Parser.firstOf_of_some (Parser.bind_of_eq_some hno) _)
  exact ⟨_, _, Parser.primary_of_bool hbool, rfl⟩

theorem readsPrimary_name {s : String} (h : IsName s) (l : Loc) :
    (Expr.name s .runtime l).ReadsPrimary := by
  intro n cs r hstands _
  refine hstands.takes_single (t := .word s) fun m hend start => ?_
  obtain ⟨_, l', hname, rfl⟩ := Parser.takes_name hend h start
  exact ⟨_, l', Parser.primary_of_name hname, rfl⟩

theorem Readable.paren {e : Expr} (he : e.Readable) (hw : e.Written) (l : Loc) :
    (Expr.paren e l).ReadsPrimary := by
  intro n cs r hstands hn
  have hparens : Parser.Takes (Parser.parens (Parser.expr n)) cs r (·.bare = e.bare) := by
    refine hstands.takes_parens fun m hm hlt => ?_
    obtain ⟨m', hinner, hclose⟩ := hm.exists_of_append
    exact ⟨m', hclose, he.whole.spaced hw hinner (by omega) hclose.next (follows_of_closer (by decide))
      (bond_of_closer (by decide))⟩
  intro start
  obtain ⟨e', l', hread, hbare⟩ := hparens start
  exact ⟨_, l', Parser.primary_of_parens hread, by simp only [bare, hbare]⟩

theorem ReadsBack.join {f : Expr} {P : PostfixOp → Prop} (hf : f.ReadsBack) (hw : f.Written)
    (ts : List Token) (htokens : e.tokens = f.tokens ++ ts)
    (hround : ∀ n m r, Spells Token.Ends ts m r → m.length < n →
      Parser.Takes (Parser.spaced (Parser.postfixOp (n + 1) (Parser.expr n))) m r P)
    (hjoin : ∀ f' op l, f'.bare = f.bare → P op → (op.apply l f').bare = e.bare) :
    e.ReadsBack := by
  intro n cs r hstands hn l
  obtain ⟨u, us, hopener, _⟩ := hw.exists_opener
  rw [htokens] at hstands
  obtain ⟨m, hfirst, hback⟩ := hstands.exists_of_append (by simp [hopener])
  have hlt := hfirst.length_lt
  obtain ⟨f', l₁, hbare, hread⟩ := hf n cs m hfirst hn l
  obtain ⟨op, l₂, hop, hP⟩ := hround n m r hback (by omega) l₁
  have hconsumes := (Parser.consumes_postfixOp (n := n + 1) (Parser.advances_expr n)).spaced
  refine ⟨op.apply l f', l₂, hjoin f' op l hbare hP, hread.trans ?_⟩
  exact Parser.onward_step hconsumes hop (show m.length < n + 1 by omega) f'

theorem Readable.back_op {op : UnaryOp} {e : Expr} (he : e.Readable) (hw : e.Written)
    (hop : op.isFront = false) (hrank : 14 ≤ e.rank) (l : Loc) : (Expr.unary op e l).ReadsBack := by
  have htokens : (Expr.unary op e l).tokens = e.tokens ++ [.mark op.symbol] := by
    rw [tokens, hop, if_neg Bool.false_ne_true]
  refine (he.back hrank).join (P := (· = .step op)) hw _ htokens (fun n m r hm hn => ?_) ?_
  · obtain ⟨_, hend, _, hread⟩ := hm.takes
      (p := Parser.postfixOp (n + 1) (Parser.expr n)) (P := (· = .step op)) fun m hm start =>
        ⟨_, _, Token.postfixOp_eq_some hop hm _ _ start, rfl⟩
    cases hend
    exact hread
  · rintro f' _ l hbare rfl
    simp only [PostfixOp.apply, bare, hbare]

theorem takes_arguments {args : List Expr} (hargs : ∀ e ∈ args, e.Written ∧ e.Readable)
    (hstands : Stands (.mark "(" :: ((commaTokens args).tail ++ [.mark ")"])) cs r)
    (hn : cs.length ≤ n) (hk : n ≤ k) :
    Parser.Takes (Parser.arguments k (Parser.expr n)) cs r fun args' =>
      bareAll args' = bareAll args := by
  have hcomma (m : List Char) (hm : (Token.mark ")").Ends m) :
      Parser.Refuses (Parser.symbol ",") ((Token.mark ")").text.toList ++ m) := fun l =>
    Token.comma_eq_none (follows_of_closer (by decide)) hm (by decide) l
  refine hstands.takes_parens fun m hm hlt => ?_
  cases args with
  | nil =>
    obtain ⟨m', hclose, _, hread⟩ := hm.leaves
      (p := Parser.orElse (Parser.commaList (Parser.expr n) k) []) (P := (· = []))
      fun m hm => Parser.Refuses.orElse (Parser.Refuses.bind fun l =>
        Parser.refuses_expr (s := ")") (by decide) n l m) []
    exact ⟨m', hclose, hread.mono fun _ h => by rw [h]⟩
  | cons e es =>
    obtain ⟨m', hlist, hclose⟩ := hm.exists_of_append
    have hne : ∀ a ∈ e :: es, a.tokens ≠ [] := fun a ha => by
      obtain ⟨u, us, hopener, _⟩ := (hargs a ha).1.exists_opener
      simp [hopener]
    refine ⟨m', hclose, hlist.spaced ?_ fun cs' hcs' hle => .orElse ?_ []⟩
    · simp [commaTokens, hne e (.head _)]
    · rw [commaTokens_eq] at hcs'
      have hread : ∀ a ∈ e :: es, ∀ t cs r, Stands a.tokens cs r → cs.length < n → Next t r →
          t = .mark "," ∨ t = .mark ")" →
            Parser.Takes (Parser.expr n) cs r fun a' => a'.bare = a.bare := by
        intro a ha t cs r hstands hlt hnext ht
        obtain ⟨n, rfl⟩ := Nat.exists_eq_add_of_le' (Nat.zero_lt_of_lt hlt)
        have hcloser : t ∈ closers := by
          obtain rfl | rfl := ht <;> decide
        exact (hargs a ha).2.whole n t cs r
          ⟨hstands, Nat.le_of_lt_succ hlt, hnext, follows_of_closer hcloser⟩
          (bond_of_closer hcloser)
      refine (takes_commaList (Parser.consumes_expr n) hne hread hcomma hclose.next hk
        (List.cons_ne_nil e es) hcs' (by omega)).mono fun args' h => ?_
      exact bareAll_eq_of_forall₂ h

theorem Readable.call {f : Expr} {args : List Expr} (hf : f.Readable) (hw : f.Written)
    (hargs : ∀ e ∈ args, e.Written ∧ e.Readable) (hrank : 14 ≤ f.rank) (l : Loc) :
    (Expr.call f args l).ReadsBack := by
  refine (hf.back hrank).join
    (P := fun op => ∃ args', op = .call args' ∧ bareAll args' = bareAll args) hw
    (.mark "(" :: ((commaTokens args).tail ++ [.mark ")"])) (by rw [tokens])
    (fun n m r hm hn => ?_) ?_
  · refine hm.spaced (List.cons_ne_nil _ _) fun cs' hcs' hle start => ?_
    obtain ⟨args', l', hread, hbare⟩ := takes_arguments hargs hcs' (n := n) (by omega)
      (Nat.le_succ n) start
    exact ⟨.call args', l', Parser.firstOf_of_some (Parser.bind_of_eq_some hread) _, args', rfl,
      hbare⟩
  · rintro f' _ l hbare ⟨args', rfl, hargs'⟩
    simp only [PostfixOp.apply, bare, hbare, hargs']

theorem Readable.front {op : UnaryOp} {e : Expr} (he : e.Readable) (hw : e.Written)
    (hop : op.isFront = true) (hrank : 13 ≤ e.rank) (l : Loc) :
    (Expr.unary op e l).ReadsChain 10 := by
  intro n t cs r hp hbond start
  obtain ⟨u, us, hopener, hopens, _⟩ := hw.exists_opener
  have hstands := hp.stands
  have hlength := hp.length
  rw [tokens, if_pos hop] at hstands
  obtain ⟨m, rfl, hend, hspells⟩ := hstands.cons
  have hpos := List.length_pos_iff.mpr (Token.text_ne_nil hend.valid)
  rw [List.length_append] at hlength
  rw [hopener] at hspells
  have hequals := hspells.ne_equals hopens
  obtain ⟨cs', hstands', hle, hlayout⟩ := hspells.layout
  rw [← hopener] at hstands'
  have hplaced : e.Placed n t cs' r := ⟨hstands', by omega, hp.next, hp.follows⟩
  obtain ⟨l₁, hl₁⟩ := hlayout (start.after op.symbol.toList)
  have hlast : 10 < 10 → t.bond ≠ 3 + 10 := fun h => absurd h (Nat.lt_irrefl 10)
  obtain ⟨e', l', hread, hbare⟩ := ((he.chain 10 (Nat.le_refl 10) hrank) n t cs' r hplaced
    hbond).takes (links_stop (Nat.le_refl 10) hplaced hlast _) l₁
  have hchain : Parser.chain (n + 1) (Parser.expr n) (binaryLevels.drop 10) =
    Parser.unary (n + 1) (Parser.expr n) := Parser.chain_nil
  have hround : Parser.frontRound ⟨start, op.symbol.toList ++ m⟩ =
      some ((op, start), ⟨l₁, cs'⟩) := by
    rw [Parser.frontRound, Parser.bind_here_apply,
      Parser.bind_of_eq_some (Token.frontOp_eq_some hop hend hequals start),
      Parser.bind_of_eq_some hl₁]
    rfl
  rw [hchain] at hread
  have hn : (op.symbol.toList ++ m).length < n + 1 := by
    rw [List.length_append]
    exact Nat.lt_succ_of_le hlength
  have hunary := Parser.unary_of_front hround hread hn
  refine ⟨.unary op e' start, l', by simp only [bare, hbare], ?_⟩
  rw [hchain, links_stop (Nat.le_refl 10) hp hlast]
  exact hunary

theorem Readable.binary {op : BinaryOp} {a b : Expr} (ha : a.Readable) (hb : b.Readable)
    (hwa : a.Written) (hwb : b.Written) (hleft : 3 + op.level ≤ a.rank)
    (hright : 3 + op.level < b.rank) (l : Loc) : (Expr.binary op a b l).ReadsChain op.level := by
  intro n t cs r hp hbond start
  have hlevel := op.level_lt
  have hstands := hp.stands
  have hlength := hp.length
  rw [tokens] at hstands
  obtain ⟨u, us, hopener, _⟩ := hwa.exists_opener
  obtain ⟨v, vs, hopener', _⟩ := hwb.exists_opener
  obtain ⟨m, hfirst, hop⟩ := hstands.exists_of_append (by simp [hopener])
  have hlt := hfirst.length_lt
  have hplaced : a.Placed n (.binary op) cs m := ⟨hfirst, hp.length, hop.next, trivial⟩
  obtain ⟨a', l₁, hbarea, hreada⟩ := ha.chain op.level (Nat.le_of_lt hlevel) hleft n _ cs m hplaced
    (Nat.le_refl _) start
  obtain ⟨m₁, hsecond, hlt₁, hread⟩ := hop.takes (p := Parser.binaryOp (levelAt op.level))
    (P := (· = op)) fun m hm start => ⟨op, _, Token.binaryOp_eq_some hm start, rfl⟩
  have hreadb : Parser.Takes (Parser.spaced (Parser.chain (n + 1) (Parser.expr n)
      (binaryLevels.drop (op.level + 1)))) m₁ r (·.bare = b.bare) :=
    hsecond.spaced (by simp [hopener']) fun cs' hcs' hle =>
      (hb.chain (op.level + 1) hlevel (by omega)).takes hlevel
        ⟨hcs', by omega, hp.next, hp.follows⟩ (by omega)
  have hlink : Parser.Takes (Parser.link (n + 1) (Parser.expr n) (levelAt op.level)
      (binaryLevels.drop (op.level + 1))) m r fun x => x.1 = op ∧ x.2.bare = b.bare :=
    hread.bind fun _ hx => hreadb.bind fun _ hy => .pure ⟨hx, hy⟩
  obtain ⟨⟨op', b'⟩, l₂, hround, rfl, hbareb⟩ := hlink l₁
  have hconsumes := Parser.consumes_link (n := n + 1) (Parser.advances_expr n) (levelAt op'.level)
    (binaryLevels.drop (op'.level + 1))
  refine ⟨.binary op' a' b' start, l₂, by simp only [bare, hbarea, hbareb], hreada.trans ?_⟩
  exact Parser.onward_step hconsumes hround (show m.length < n + 1 by omega) a'

theorem Readable.conditional {c yes no : Expr} (hc : c.Readable) (hyes : yes.Readable)
    (hno : no.Readable) (hwc : c.Written) (hwyes : yes.Written) (hwno : no.Written)
    (hleft : 2 < c.rank) (hright : 2 ≤ no.rank) (l : Loc) :
    (Expr.conditional c yes no l).ReadsTernary := by
  intro n t cs r hp hbond start
  have hstands := hp.stands
  have hlength := hp.length
  rw [tokens] at hstands
  obtain ⟨u, us, hopener, _⟩ := hwc.exists_opener
  obtain ⟨v, vs, hopener', _⟩ := hwno.exists_opener
  obtain ⟨m₁, hfirst, hm₁⟩ := hstands.exists_of_append (by simp [hopener])
  have hlt₁ := hfirst.length_lt
  obtain ⟨m₂, hm₂, hlt₂, hquestion⟩ := hm₁.takes fun m _ => Parser.takes_symbol "?" m
  obtain ⟨m₃, hsecond, hm₃⟩ := hm₂.exists_of_append
  have hle₃ := hsecond.length_le
  obtain ⟨m₄, hm₄, hlt₄, hcolon⟩ := hm₃.takes fun m _ => Parser.takes_symbol ":" m
  rw [hopener'] at hm₄
  obtain ⟨cs', hthird, hle, hlayout⟩ := hm₄.layout
  rw [← hopener'] at hthird
  have hmark : (Token.mark "?").Follows ∧ (Token.mark "?").bond = 2 := ⟨by
    show "?" ∈ followers
    decide, rfl⟩
  have hplaced : c.Placed n (.mark "?") cs m₁ := ⟨hfirst, hlength, hm₁.next, hmark.1⟩
  obtain ⟨c', l₁, hreadc, hbarec⟩ := (hc.chain 0 (Nat.zero_le 10) hleft).takes (Nat.zero_le 10)
    hplaced (by omega) start
  obtain ⟨_, l₂, hl₂, _⟩ := hquestion l₁
  obtain ⟨yes', l₃, hreadyes, hbareyes⟩ := hyes.whole.spaced hwyes hsecond (n := n) (by omega)
    hm₃.next (follows_of_closer (by decide)) (bond_of_closer (by decide)) l₂
  obtain ⟨_, l₄, hl₄, _⟩ := hcolon l₃
  obtain ⟨l₅, hl₅⟩ := hlayout l₄
  obtain ⟨no', l', hreadno, hbareno⟩ := hno.ternary hright n t cs' r
    ⟨hthird, by omega, hp.next, hp.follows⟩ hbond l₅
  refine ⟨.conditional c' yes' no' start, l', ?_, by simp only [bare, hbarec, hbareyes, hbareno]⟩
  rw [Parser.ternary_apply]
  exact (Parser.bind_of_eq_some hreadc).trans (Parser.armsFrom_of_ternary (Parser.advances_expr n)
    hl₂ hreadyes hl₄ hl₅ hreadno (show m₁.length < n + 1 by omega))

theorem Readable.assign {op : String} {target value : Expr} (htarget : target.Readable)
    (hvalue : value.Readable) (hwt : target.Written) (hwv : value.Written)
    (hop : op ∈ assignSymbols) (hrank : 13 ≤ target.rank) (l : Loc) :
    (Expr.assign op target value l).ReadsWhole := by
  intro n t cs r hp hbond start
  have hstands := hp.stands
  have hlength := hp.length
  rw [tokens] at hstands
  obtain ⟨u, us, hopener, _⟩ := hwt.exists_opener
  obtain ⟨v, vs, hopener', hopens, _⟩ := hwv.exists_opener
  obtain ⟨m, hfirst, hm⟩ := hstands.exists_of_append (by simp [hopener])
  have hlt := hfirst.length_lt
  have hmark : ∀ s ∈ assignSymbols, s ∈ followers ∧ (Token.mark s).bond = 1 := by decide
  have hplaced : target.Placed n (.mark op) cs m := ⟨hfirst, hlength, hm.next, (hmark op hop).1⟩
  have htake := (htarget.chain 10 (Nat.le_refl 10) hrank).takes (Nat.le_refl 10) hplaced
    (by rw [(hmark op hop).2]; decide)
  have hchain : Parser.chain (n + 1) (Parser.expr n) (binaryLevels.drop 10) =
    Parser.unary (n + 1) (Parser.expr n) := Parser.chain_nil
  rw [hchain] at htake
  obtain ⟨target', l₁, hreadt, hbaret⟩ := htake start
  obtain ⟨cs₁, hstands₁, hle₁, hlayout⟩ := hm.layout
  obtain ⟨m₁, rfl, hend, hspells⟩ := hstands₁.cons
  have hpos := List.length_pos_iff.mpr (Token.text_ne_nil hend.valid)
  rw [List.length_append] at hle₁
  rw [hopener'] at hspells
  have hequals := hspells.ne_equals hopens
  rw [← hopener'] at hspells
  obtain ⟨l₂, hl₂⟩ := hlayout l₁
  have hread : Parser.spaced Parser.assignOp ⟨l₁, m⟩ = some (op, ⟨l₂.after op.toList, m₁⟩) :=
    (Parser.bind_of_eq_some hl₂).trans (Token.assignOp_eq_some hop hend hequals l₂)
  obtain ⟨value', l', hreadv, hbarev⟩ := hvalue.whole.spaced hwv hspells (n := n) (by omega) hp.next
    hp.follows hbond (l₂.after op.toList)
  exact ⟨_, l', Parser.exprWith_of_assign hreadt hread hreadv, by simp only [bare, hbaret, hbarev]⟩

end Forms

/-- Expressions are read back from their tokens, and no looser one than what was written. -/
theorem Written.readable (h : e.Written) : e.Readable := by
  have hprimary {e : Expr} (h : e.ReadsPrimary) (hw : e.Written) (hrank : e.rank = 15) :
      e.Readable := .of_back h.back hw (by omega)
  induction h with
  | @number v s l h => exact hprimary (readsPrimary_number h l) (.number h) rfl
  | @yes l => exact hprimary (readsPrimary_yes l) .yes rfl
  | @no l => exact hprimary (readsPrimary_no l) .no rfl
  | @string s l h => exact hprimary (readsPrimary_string h l) (.string h) rfl
  | @name s l h => exact hprimary (readsPrimary_name h l) (.name h) rfl
  | @paren e l he ih => exact hprimary (ih.paren he l) (.paren he) rfl
  | @front op e l hop he hrank ih =>
    refine .of_chain (ih.front he hop hrank l) (Nat.le_refl 10) ?_
    rw [rank, if_pos hop]
  | @back op e l hop he hrank ih =>
    refine .of_back (ih.back_op he hop hrank l) (.back hop he hrank) ?_
    rw [rank, hop, if_neg Bool.false_ne_true]
  | @binary op a b l ha hb hleft hright iha ihb =>
    exact .of_chain (iha.binary ihb ha hb hleft hright l) (Nat.le_of_lt op.level_lt) rfl
  | @conditional c yes no l hc hyes hno hleft hright ihc ihyes ihno =>
    exact .of_ternary (ihc.conditional ihyes ihno hc hyes hno hleft hright l) (Nat.lt_succ_self 2)
  | @call f args l hf hargs hrank ihf ihargs =>
    have hall : ∀ e ∈ args, e.Written ∧ e.Readable := fun e he => ⟨hargs e he, ihargs e he⟩
    exact .of_back (ihf.call hf hall hrank l) (.call hf hargs hrank) (Nat.le_refl 14)
  | @assign op target value l hop ht hv hrank iht ihv =>
    exact .of_whole (iht.assign ihv ht hv hop hrank l) (Nat.lt_succ_self 1)

section Inside

variable (h : e.Written) (hnext : Next t r) (ht : t ∈ closers)
include h hnext ht

theorem Written.takes (hstands : Stands e.tokens cs r) (hn : cs.length < n) :
    Parser.Takes (Parser.expr n) cs r (·.bare = e.bare) := by
  obtain ⟨n, rfl⟩ := Nat.exists_eq_add_of_le' (Nat.zero_lt_of_lt hn)
  exact h.readable.whole n t cs r ⟨hstands, Nat.le_of_lt_succ hn, hnext, follows_of_closer ht⟩
    (bond_of_closer ht)

theorem Written.takes_spaced (hspells : Spells Token.Ends e.tokens cs r) (hn : cs.length < n) :
    Parser.Takes (Parser.spaced (Parser.expr n)) cs r (·.bare = e.bare) :=
  h.readable.whole.spaced h hspells hn hnext (follows_of_closer ht) (bond_of_closer ht)

end Inside

end Expr

end AttrCheck
