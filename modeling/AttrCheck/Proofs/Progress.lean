import AttrCheck.Proofs.UnitReading

/-! Parsers that read at least one character. Expressions, specifiers and statements do, whatever
the allowance, and so does every round of a repetition in the grammar. -/

namespace AttrCheck

namespace Parser

variable {α β : Type} {p : Parser α}

theorem consumes_failure : Consumes (failure : Parser α) := nofun

namespace Consumes

theorem seqRight {q : Parser β} (hp : Consumes p) (hq : Advances q) : Consumes (p *> q) :=
  hp.bind fun _ => hq

theorem seqLeft {q : Parser β} (hp : Consumes p) (hq : Advances q) : Consumes (p <* q) :=
  hp.bind fun _ => hq.bind fun _ => advances_pure _

theorem map (f : α → β) (hp : Consumes p) : Consumes (f <$> p) := by
  intro c b c' h
  obtain ⟨a, h, _⟩ := map_eq_some_iff.mp h
  exact hp c a c' h

theorem orElse {q : Parser α} (hp : Consumes p) (hq : Consumes q) : Consumes (p <|> q) := by
  intro c a c' h
  exact (orElse_eq_some h).elim (hp c a c') (hq c a c')

theorem first {ps : List (Parser α)} (hp : Consumes p) (hps : Consumes (Parser.firstOf ps)) :
    Consumes (Parser.firstOf (p :: ps)) := hp.orElse hps

theorem last (hp : Consumes p) : Consumes (Parser.firstOf [p]) := hp.orElse consumes_failure

theorem firstOf {ps : List (Parser α)} (h : ∀ p ∈ ps, Consumes p) :
    Consumes (Parser.firstOf ps) := by
  intro c a c' e
  obtain ⟨p, hp, e⟩ := firstOf_eq_some e
  exact h p hp c a c' e

theorem parens (hp : Advances p) : Consumes (Parser.parens p) :=
  (consumes_symbol (by decide)).bind fun _ => hp.spaced.bind fun _ =>
    (advances_symbol _).spaced.bind fun _ => advances_pure _

end Consumes

theorem consumes_symbolNotBefore {s : String} (hs : s.toList ≠ []) (bad : List Char) :
    Consumes (symbolNotBefore s bad) :=
  (consumes_symbol hs).bind fun _ => advances_notBefore bad.contains

theorem consumes_number : Consumes number := by
  have hempty : wordNumber? [] = none := by decide
  refine consumes_lexeme (fun cs a t rest h => ?_) fun cs a rest h => ?_
  · simp only [splitNumber, Option.map_eq_some_iff, Prod.mk.injEq] at h
    obtain ⟨_, _, _, rfl, rfl⟩ := h
    exact List.takeWhile_append_dropWhile.symm
  · simp only [splitNumber, Option.map_eq_some_iff, Prod.mk.injEq] at h
    obtain ⟨n, hn, _, hw, _⟩ := h
    rw [hw, hempty] at hn
    cases hn

theorem splitString_eq_some {cs t rest : List Char} {a : String}
    (h : splitString cs = some (a, t, rest)) :
    ∃ body, splitStringBody cs.tail = some (body, rest) ∧ t = '"' :: body ++ ['"'] ∧
      cs = t ++ rest := by
  unfold splitString at h
  split at h
  · simp only [Option.map_eq_some_iff, Prod.mk.injEq] at h
    obtain ⟨⟨body, r⟩, hb, _, rfl, rfl⟩ := h
    exact ⟨body, hb, rfl, by simp [splitStringBody_eq_some hb]⟩
  · exact absurd h nofun

theorem consumes_stringLiteral : Consumes stringLiteral := by
  refine consumes_lexeme (fun cs a t rest h => ?_) fun cs a rest h => ?_
  · obtain ⟨_, _, _, hcs⟩ := splitString_eq_some h
    exact hcs
  · obtain ⟨_, _, ht, _⟩ := splitString_eq_some h
    exact absurd ht nofun

theorem consumes_theWord {s : String} (hs : s.toList ≠ []) : Consumes (theWord s) :=
  (consumes_keyword hs).bind fun _ => advances_pure s

theorem consumes_declarator : Consumes declarator := by
  have hmark (s : String) (hs : s.toList ≠ []) : Consumes (symbol s *> pure s) :=
    (consumes_symbol hs).seqRight (advances_pure s)
  exact (advances_run _).bind_consumes fun _ =>
    ((hmark "*" (by decide)).first (hmark "&" (by decide)).last).bind fun _ => advances_pure _

theorem consumes_frontOp : Consumes frontOp := by
  have hs (s : String) (h : s.toList ≠ []) (op : UnaryOp) : Consumes (symbol s *> pure op) :=
    (consumes_symbol h).seqRight (advances_pure op)
  have hb (s : String) (h : s.toList ≠ []) (op : UnaryOp) :
      Consumes (symbolNotBefore s ['='] *> pure op) :=
    (consumes_symbolNotBefore h _).seqRight (advances_pure op)
  exact (hs _ (by decide) _).first <| (hs _ (by decide) _).first <| (hb _ (by decide) _).first <|
    (hb _ (by decide) _).first <| (hb _ (by decide) _).first (hb _ (by decide) _).last

theorem consumes_binaryOp (level : List (BinaryOp × List Char)) : Consumes (binaryOp level) := by
  refine .firstOf fun p hp => ?_
  obtain ⟨⟨op, bad⟩, _, rfl⟩ := List.mem_map.mp hp
  have hop : op.symbol.toList ≠ [] := by cases op <;> decide
  exact (consumes_symbolNotBefore hop bad).seqRight (advances_pure op)

theorem consumes_assignOp : Consumes assignOp := by
  refine .firstOf fun p hp => ?_
  obtain ⟨s, hs, rfl⟩ := List.mem_map.mp hp
  have hne : ∀ s ∈ assignSymbols, s.toList ≠ [] := by decide
  exact (consumes_symbolNotBefore (hne s hs) _).seqRight (advances_pure s)

theorem consumes_boolWord : Consumes boolWord :=
  ((consumes_theWord (by decide)).seqRight (advances_pure _)).first
    ((consumes_theWord (by decide)).seqRight (advances_pure _)).last

section Expr

variable {n : Nat} {inner : Parser Expr} (h : Advances inner)
include h

theorem consumes_arguments : Consumes (arguments n inner) := .parens ((h.commaList n).default [])

theorem consumes_primary : Consumes (primary inner) := by
  refine advances_here.bind_consumes fun start => ?_
  exact (consumes_number.bind fun _ => advances_pure _).first <|
    (consumes_stringLiteral.bind fun _ => advances_pure _).first <|
    (consumes_boolWord.bind fun _ => advances_pure _).first <|
    ((Consumes.parens h).bind fun _ => advances_pure _).first
    (consumes_name.bind fun _ => advances_pure _).last

theorem consumes_postfixOp : Consumes (postfixOp n inner) :=
  ((consumes_arguments h).bind fun _ => advances_pure _).first <|
    ((consumes_symbol (by decide)).seqRight (advances_pure _)).first
    ((consumes_symbol (by decide)).seqRight (advances_pure _)).last

theorem consumes_unary : Consumes (unary n inner) := by
  have hfront := advances_here.bind fun start => advances_frontOp.bind fun op =>
    advances_layout.bind fun _ => advances_pure (op, start)
  refine (hfront.many n).bind_consumes fun _ => Consumes.bind ?_ fun _ => advances_pure _
  exact advances_here.bind_consumes fun _ => (consumes_primary h).bind fun _ =>
    ((advances_postfixOp h).spaced.many n).bind fun _ => advances_pure _

end Expr

theorem consumes_expr (n : Nat) : Consumes (expr n) := by
  cases n with
  | zero => exact consumes_failure
  | succ n =>
    exact advances_here.bind_consumes fun start => (consumes_unary (advances_expr n)).bind
      fun operand => (advances_assignFrom (advances_expr n) start operand).orElse
        (advances_conditionalFrom (advances_expr n) start operand)

section Specifier

variable {n : Nat} {inner : Parser Expr} (h : Advances inner)
include h

theorem consumes_attributeWith (sp : Spelling) {named : Parser (Option String × String)}
    (hn : Consumes named) : Consumes (attributeWith n inner sp named) :=
  advances_here.bind_consumes fun _ => hn.bind fun _ =>
    ((advances_arguments h).spaced.default []).bind fun _ =>
      advances_here.bind fun _ => advances_pure _

theorem consumes_declspecEntry : Consumes (declspecEntry n inner) :=
  consumes_attributeWith h _ (consumes_name.bind fun _ => advances_pure _)

theorem advances_attributeList (sp : Spelling) : Advances (attributeList n inner sp) :=
  ((consumes_attributeWith h sp consumes_scopedName).advances.commaList n).default []

theorem advances_declspecList : Advances (declspecList n inner) := by
  have hentry : Advances (declspecEntry n inner) := (consumes_declspecEntry h).advances
  exact Advances.default (hentry.bind fun _ => (hentry.spaced.many n).bind fun _ =>
    advances_pure _) []

theorem consumes_loopOption : Consumes (loopOption inner) :=
  (advances_run _).bind_consumes fun _ => advances_here.bind_consumes fun _ =>
    consumes_name.bind fun _ => (advances_run _).bind fun _ => (advances_symbol _).bind fun _ =>
      h.maybe.spaced.bind fun _ => advances_layout.bind fun _ => advances_here.bind fun _ =>
        (advances_symbol _).bind fun _ => advances_here.bind fun _ => advances_pure _

omit h in
theorem Consumes.specifier {p : Parser (List RawAttr)} (hp : Consumes p) :
    Consumes (Parser.specifier p) :=
  advances_here.bind_consumes fun _ => hp.bind fun _ => advances_here.bind fun _ =>
    advances_pure _

theorem consumes_anySpecifier : Consumes (anySpecifier n inner) := by
  have hbracket : Consumes (bracketSpecifier n inner) :=
    .specifier <| (consumes_symbol (by decide)).bind fun _ =>
      (advances_attributeList h _).spaced.bind fun _ =>
        (advances_symbol _).spaced.bind fun _ => advances_pure _
  have hgnu : Consumes (gnuSpecifier n inner) :=
    .specifier <| (consumes_keyword (by decide)).bind fun _ =>
      (advances_attributeList h _).parens.parens.spaced
  have hdeclspec : Consumes (declspecSpecifier n inner) :=
    .specifier <| (consumes_keyword (by decide)).bind fun _ =>
      (advances_declspecList h).parens.spaced
  have hloop : Consumes (loopSpecifier n inner) :=
    advances_here.bind_consumes fun _ => consumes_loopDirective.bind fun _ =>
      (consumes_loopOption h).advances.bind fun _ =>
        ((consumes_loopOption h).advances.many n).bind fun _ => (advances_run _).bind fun _ =>
          advances_lineEnd.bind fun _ => advances_pure _
  exact hbracket.first <| hgnu.first <| hdeclspec.first hloop.last

theorem consumes_specifiers : Consumes (specifiers n inner) :=
  (consumes_anySpecifier h).bind fun _ =>
    ((consumes_anySpecifier h).advances.spaced.many n).bind fun _ => advances_pure _

end Specifier

section Stmt

variable {n : Nat} {sub : Parser Stmt} (h : Advances sub)

theorem Consumes.worded {α : Type} {s : String} {q : Loc → Parser α} (hs : s.toList ≠ [])
    (hq : ∀ start, Advances (q start)) :
    Consumes (do let start ← here; keyword s; q start) :=
  advances_here.bind_consumes fun start => (consumes_keyword hs).bind fun _ => hq start

theorem consumes_exprStmt : Consumes (exprStmt n) :=
  advances_here.bind_consumes fun _ => (consumes_expr n).bind fun _ =>
    (advances_symbol _).spaced.bind fun _ => advances_pure _

theorem consumes_nullStmt : Consumes nullStmt :=
  advances_here.bind_consumes fun _ => (consumes_symbol (by decide)).bind fun _ => advances_pure _

theorem consumes_declStmt : Consumes (declStmt n) :=
  consumes_variableDecl.bind fun _ => advances_pure _

theorem advances_loopInit : Advances (loopInit n) :=
  (consumes_declStmt.advances.map some).first <| (consumes_exprStmt.advances.map some).first
    (consumes_nullStmt.advances.seqRight (advances_pure none)).last

theorem consumes_wordStmt {word : String} (hw : word.toList ≠ []) (make : Loc → Stmt) :
    Consumes (wordStmt word make) :=
  .worded hw fun _ => (advances_symbol _).spaced.bind fun _ => advances_pure _

theorem consumes_returnStmt : Consumes (returnStmt n) :=
  .worded (by decide) fun _ => (advances_expr n).maybe.spaced.bind fun _ =>
    (advances_symbol _).spaced.bind fun _ => advances_pure _

include h

theorem consumes_annotatedStmt : Consumes (annotatedStmt n sub) :=
  (consumes_specifiers (advances_expr n)).bind fun _ => h.spaced.bind fun _ => advances_pure _

theorem consumes_caseStmt : Consumes (caseStmt n sub) :=
  .worded (by decide) fun _ => advances_spacedExpr.bind fun _ =>
    (advances_symbol _).spaced.bind fun _ => h.spaced.bind fun _ => advances_pure _

theorem consumes_defaultStmt : Consumes (defaultStmt sub) :=
  .worded (by decide) fun _ => (advances_symbol _).spaced.bind fun _ => h.spaced.bind fun _ =>
    advances_pure _

theorem consumes_compoundStmt : Consumes (compoundStmt n sub) :=
  advances_here.bind_consumes fun _ => (consumes_symbol (by decide)).bind fun _ =>
    advances_layout.bind fun _ =>
      Advances.bind (.many (h.bind fun _ => advances_layout.bind fun _ => advances_pure _) n)
        fun _ => (advances_symbol _).bind fun _ => advances_pure _

theorem consumes_ifStmt : Consumes (ifStmt n sub) :=
  .worded (by decide) fun _ => advances_condition.bind fun _ => h.spaced.bind fun _ =>
    Advances.bind (.maybe ((advances_keyword _).spaced.bind fun _ => h.spaced)) fun _ =>
      advances_pure _

theorem consumes_conditionStmt {word : String} (hw : word.toList ≠ [])
    (make : Expr → Stmt → Loc → Stmt) : Consumes (conditionStmt n sub word make) :=
  .worded hw fun _ => advances_condition.bind fun _ => h.spaced.bind fun _ => advances_pure _

theorem consumes_doStmt : Consumes (doStmt n sub) :=
  .worded (by decide) fun _ => h.spaced.bind fun _ => (advances_keyword _).spaced.bind fun _ =>
    advances_condition.bind fun _ => (advances_symbol _).spaced.bind fun _ => advances_pure _

theorem consumes_rangeForStmt : Consumes (rangeForStmt n sub) :=
  .worded (by decide) fun _ => (advances_symbol _).spaced.bind fun _ =>
    (advances_typeName n).spaced.bind fun _ => consumes_name.advances.spaced.bind fun _ =>
      (advances_symbol _).spaced.bind fun _ => advances_spacedExpr.bind fun _ =>
        (advances_symbol _).spaced.bind fun _ => h.spaced.bind fun _ => advances_pure _

theorem consumes_forStmt : Consumes (forStmt n sub) :=
  .worded (by decide) fun _ => (advances_symbol _).spaced.bind fun _ =>
    advances_loopInit.spaced.bind fun _ => (advances_expr n).maybe.spaced.bind fun _ =>
      (advances_symbol _).spaced.bind fun _ => (advances_expr n).maybe.spaced.bind fun _ =>
        (advances_symbol _).spaced.bind fun _ => h.spaced.bind fun _ => advances_pure _

theorem consumes_stmtWith : Consumes (stmtWith n sub) := by
  refine .firstOf fun p hp => ?_
  simp only [List.mem_cons, List.not_mem_nil, or_false] at hp
  -- One case for each form of a statement, in the order in which they are tried.
  obtain rfl | rfl | rfl | rfl | rfl | rfl | rfl | rfl | rfl | rfl | rfl | rfl | rfl | rfl | rfl |
    rfl := hp
  · exact consumes_annotatedStmt h
  · exact consumes_caseStmt h
  · exact consumes_defaultStmt h
  · exact consumes_compoundStmt h
  · exact consumes_ifStmt h
  · exact consumes_conditionStmt h (by decide) .switch
  · exact consumes_conditionStmt h (by decide) .whileLoop
  · exact consumes_doStmt h
  · exact consumes_rangeForStmt h
  · exact consumes_forStmt h
  · exact consumes_wordStmt (by decide) .brk
  · exact consumes_wordStmt (by decide) .cont
  · exact consumes_returnStmt
  · exact consumes_declStmt
  · exact consumes_nullStmt
  · exact consumes_exprStmt

end Stmt

theorem consumes_stmt (n : Nat) : Consumes (stmt n) := by
  induction n with
  | zero => exact consumes_failure
  | succ n ih => exact consumes_stmtWith ih.advances

theorem consumes_function (n : Nat) : Consumes (function n) := by
  intro c f c' e
  obtain ⟨d, hd, hbody⟩ := body_of_function e
  exact hd.trans_passes (consumes_compoundStmt (consumes_stmt n).advances d f.body c' hbody)

theorem consumes_topLevel (n : Nat) : Consumes (topLevel n) :=
  ((consumes_function n).map _).orElse (consumes_variableDecl.map _)

end Parser

end AttrCheck
