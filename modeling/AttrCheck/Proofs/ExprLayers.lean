import AttrCheck.Proofs.ExprTokens

/-! The layers of the grammar of expressions, each as a parser that begins where the expression does,
and what one round of each repetition reads. -/

namespace AttrCheck

namespace Parser

variable {α : Type} {n : Nat} {inner : Parser Expr} {cs r : List Char} {l l' : Loc}
  {c c' c'' : Cursor}

def onward (p : Parser α) (join : Expr → α → Expr) (n : Nat) (e : Expr) : Parser Expr := do
  let as ← many p n
  return as.foldl join e

theorem onward_step {p : Parser α} (hp : Consumes p) {join : Expr → α → Expr} {a : α}
    (h : p c = some (a, c')) (hn : c.rest.length < n) (e : Expr) :
    onward p join n e c = onward p join n (join e a) c' := by
  obtain ⟨as, c'', has⟩ := exists_many p n c'
  rw [onward, onward, bind_of_eq_some (many_step hp h has hn), bind_of_eq_some has]
  rfl

theorem onward_stop {p : Parser α} {join : Expr → α → Expr} (h : p c = none) (e : Expr) :
    onward p join n e c = some (e, c) := by
  rw [onward, bind_of_eq_some (many_of_none h n)]
  rfl

def backs (n : Nat) (inner : Parser Expr) (start : Loc) : Expr → Parser Expr :=
  onward (spaced (postfixOp n inner)) (PostfixOp.apply start) n

section Unary

def frontRound : Parser (UnaryOp × Loc) := do
  let start ← here
  let op ← frontOp
  layout
  return (op, start)

theorem consumes_frontRound : Consumes frontRound :=
  advances_here.bind_consumes fun _ => consumes_frontOp.bind fun _ =>
    advances_layout.bind fun _ => advances_pure _

theorem unary_of_front {op : UnaryOp} {e : Expr} (hop : frontRound c = some ((op, l), c'))
    (h : unary n inner c' = some (e, c'')) (hn : c.rest.length < n) :
    unary n inner c = some (.unary op e l, c'') := by
  obtain ⟨fronts, c₁, hfronts, h⟩ := bind_eq_some_iff.mp h
  obtain ⟨operand, c₂, hoperand, h⟩ := bind_eq_some_iff.mp h
  obtain ⟨rfl, rfl⟩ := pure_eq_some_iff.mp h
  have hmany := many_step consumes_frontRound hop hfronts hn
  exact (bind_of_eq_some hmany).trans (bind_of_eq_some hoperand)

theorem unary_of_none (h : frontOp c = none) : unary n inner c = postfixExpr n inner c := by
  have hround : frontRound c = none := by
    rw [frontRound, bind_here_apply, bind_of_eq_none h]
  refine (bind_of_eq_some (many_of_none hround n)).trans ?_
  exact congrFun (bind_pure (postfixExpr n inner)) c

end Unary

section Chain

variable (n inner)

def chain (levels : List (List (BinaryOp × List Char))) : Parser Expr := do
  let start ← here
  let operand ← unary n inner
  chainFrom n inner start operand levels

def joinOp (start : Loc) (lhs : Expr) (x : BinaryOp × Expr) : Expr := .binary x.1 lhs x.2 start

def link (level : List (BinaryOp × List Char)) (tighter : List (List (BinaryOp × List Char))) :
    Parser (BinaryOp × Expr) := do
  let op ← spaced (binaryOp level)
  let rhs ← spaced (chain n inner tighter)
  return (op, rhs)

def links (level : List (BinaryOp × List Char)) (tighter : List (List (BinaryOp × List Char)))
    (start : Loc) : Expr → Parser Expr :=
  onward (link n inner level tighter) (joinOp start) n

def arm : Parser (Expr × Expr × Loc) := do
  spaced (symbol "?")
  let yes ← spaced inner
  spaced (symbol ":")
  layout
  let loc ← here
  let next ← chain n inner binaryLevels
  return (yes, next, loc)

def armsFrom (start : Loc) (cond : Expr) : Parser Expr := do
  let arms ← many (arm n inner) n
  return joinArms start cond arms

def ternary : Parser Expr := do
  let start ← here
  let operand ← unary n inner
  conditionalFrom n inner start operand

variable {n inner}

theorem chain_nil : chain n inner [] = unary n inner := by
  have hfrom (start : Loc) : (fun e => chainFrom n inner start e []) = pure := rfl
  funext c
  rw [chain, bind_here_apply, hfrom, bind_pure]

theorem chain_cons (level : List (BinaryOp × List Char))
    (tighter : List (List (BinaryOp × List Char))) (c : Cursor) :
    chain n inner (level :: tighter) c =
      (chain n inner tighter >>= links n inner level tighter c.loc) c := by
  simp only [chain, bind_assoc, bind_here_apply, chainFrom]
  simp only [links, link, chain, spaced, bind_assoc]
  rfl

theorem ternary_apply (c : Cursor) :
    ternary n inner c = (chain n inner binaryLevels >>= armsFrom n inner c.loc) c := by
  have harm : arm n inner = (do
      spaced (symbol "?")
      let yes ← spaced inner
      spaced (symbol ":")
      layout
      let loc ← here
      let operand ← unary n inner
      let next ← chainFrom n inner loc operand binaryLevels
      return (yes, next, loc)) := by
    have hhere {β : Type} (q : Loc → Loc → Parser β) :
        (here >>= fun a => here >>= q a) = here >>= fun a => q a a := rfl
    simp only [arm, chain, bind_assoc, hhere]
  have harms : armsFrom n inner c.loc = fun cond => do
      let arms ← many (arm n inner) n
      return joinArms c.loc cond arms := rfl
  rw [harms, harm]
  simp only [ternary, chain, bind_assoc, bind_here_apply, conditionalFrom]

variable (ha : Advances inner)
include ha

theorem advances_chain (levels : List (List (BinaryOp × List Char))) :
    Advances (chain n inner levels) :=
  advances_here.bind fun _ => (advances_unary ha).bind fun _ => advances_chainFrom ha levels _ _

theorem consumes_link (level : List (BinaryOp × List Char))
    (tighter : List (List (BinaryOp × List Char))) : Consumes (link n inner level tighter) :=
  (consumes_binaryOp level).spaced.bind fun _ => (advances_chain ha tighter).spaced.bind fun _ =>
    advances_pure _

theorem consumes_arm : Consumes (arm n inner) :=
  (consumes_symbol (by decide)).spaced.bind fun _ => ha.spaced.bind fun _ =>
    (advances_symbol _).spaced.bind fun _ => advances_layout.bind fun _ =>
      advances_here.bind fun _ => (advances_chain ha _).bind fun _ => advances_pure _

theorem armsFrom_of_ternary {start : Loc} {cond yes no : Expr} {c₁ c₂ c₃ c₄ c₅ : Cursor}
    (hquestion : spaced (symbol "?") c = some ((), c₁)) (hyes : spaced inner c₁ = some (yes, c₂))
    (hcolon : spaced (symbol ":") c₂ = some ((), c₃)) (hlayout : layout c₃ = some ((), c₄))
    (hno : ternary n inner c₄ = some (no, c₅)) (hn : c.rest.length < n) :
    armsFrom n inner start cond c = some (.conditional cond yes no start, c₅) := by
  rw [ternary_apply] at hno
  obtain ⟨next, c', hnext, hno⟩ := bind_eq_some_iff.mp hno
  obtain ⟨arms, c'', harms, hno⟩ := bind_eq_some_iff.mp hno
  obtain ⟨rfl, rfl⟩ := pure_eq_some_iff.mp hno
  have harm : arm n inner c = some ((yes, next, c₄.loc), c') := by
    rw [arm, bind_of_eq_some hquestion, bind_of_eq_some hyes, bind_of_eq_some hcolon,
      bind_of_eq_some hlayout, bind_here_apply, bind_of_eq_some hnext]
    rfl
  exact bind_of_eq_some (many_step (consumes_arm ha) harm harms hn)

omit ha in
theorem armsFrom_stop {start : Loc} {cond : Expr} (h : spaced (symbol "?") c = none) :
    armsFrom n inner start cond c = some (cond, c) := by
  have harm : arm n inner c = none := bind_of_eq_none h _
  rw [armsFrom, bind_of_eq_some (many_of_none harm n)]
  rfl

end Chain

section Assign

variable (n inner)

theorem chainFrom_stop {levels : List (List (BinaryOp × List Char))}
    (h : ∀ level ∈ levels, spaced (binaryOp level) c = none) (start : Loc) (e : Expr) :
    chainFrom n inner start e levels c = some (e, c) := by
  induction levels with
  | nil => rfl
  | cons level levels ih =>
    have hlhs := ih fun level' h' => h level' (.tail _ h')
    have hlink := bind_of_eq_none (h level (.head _)) fun op => (do
      layout
      let loc ← here
      let operand ← unary n inner
      let rhs ← chainFrom n inner loc operand levels
      return (op, rhs))
    rw [chainFrom, bind_of_eq_some hlhs, bind_of_eq_some (many_of_none hlink n)]
    rfl

theorem conditionalFrom_of_assign {op : String} (h : spaced assignOp c = some (op, c'))
    (start : Loc) (e : Expr) : conditionalFrom n inner start e c = some (e, c) := by
  obtain ⟨_, ⟨l₁, cs₁⟩, hlayout, hop⟩ := bind_eq_some_iff.mp h
  obtain ⟨q, hq, hop⟩ := firstOf_eq_some hop
  obtain ⟨s, hs, rfl⟩ := List.mem_map.mp hq
  obtain ⟨_, _, hread, _⟩ := bind_eq_some_iff.mp hop
  obtain ⟨_, ⟨l₂, m⟩, hsymbol, hbefore⟩ := bind_eq_some_iff.mp hread
  obtain rfl : cs₁ = s.toList ++ m := eq_append_of_symbol hsymbol
  have hcontinuations : ∀ s ∈ assignSymbols, s ∈ Token.marks ∧ s ∈ followers ∧
      (Token.mark s).bond = 1 ∧ ∀ d ∈ continuations s, d = '=' := by
    decide
  obtain ⟨hmark, hfollows, hbond, hcont⟩ := hcontinuations s hs
  have hend : (Token.mark s).Ends m := by
    refine ⟨hmark, fun d hd hstop => ?_⟩
    obtain ⟨_, hequals⟩ := notBefore_eq_some hbefore
    have hfalse := hequals d hd
    rw [hcont d hstop] at hfalse
    cases hfalse
  have hlevels : ∀ level ∈ binaryLevels, ∃ k, k < 10 ∧ level = levelAt k := by decide
  have hchain : ∀ level ∈ binaryLevels, spaced (binaryOp level) c = none := by
    intro level hlevel
    obtain ⟨k, hk, rfl⟩ := hlevels level hlevel
    exact (bind_of_eq_some hlayout).trans
      (Token.binaryOp_eq_none (t := .mark s) hfollows hend hk (by omega) l₁)
  have hquestion : spaced (symbol "?") c = none :=
    (bind_of_eq_some hlayout).trans
      (Token.question_eq_none (t := .mark s) hfollows hend (by omega) l₁)
  rw [conditionalFrom, bind_of_eq_some (chainFrom_stop n inner hchain start e),
    bind_of_eq_some (many_of_none (bind_of_eq_none hquestion _) n)]
  rfl

variable {n inner}

theorem exprWith_of_ternary {e : Expr} (h : ternary n inner c = some (e, c'))
    (hstop : spaced assignOp c' = none) : exprWith n inner c = some (e, c') := by
  rw [ternary, bind_here_apply] at h
  obtain ⟨operand, c₁, hoperand, hrest⟩ := bind_eq_some_iff.mp h
  rw [exprWith, bind_here_apply, bind_of_eq_some hoperand]
  have hassign : spaced assignOp c₁ = none := by
    cases hop : spaced assignOp c₁ with
    | none => rfl
    | some x =>
      have hread := conditionalFrom_of_assign n inner hop c.loc operand
      obtain ⟨_, rfl⟩ := Prod.mk.inj (Option.some.inj (hread.symm.trans hrest))
      rw [hstop] at hop
      cases hop
  exact (choice_of_none (bind_of_eq_none hassign _) _).trans hrest

theorem exprWith_of_assign {op : String} {target value : Expr} {c₁ c₂ c₃ : Cursor}
    (htarget : unary n inner c = some (target, c₁))
    (hop : spaced assignOp c₁ = some (op, c₂)) (hvalue : spaced inner c₂ = some (value, c₃)) :
    exprWith n inner c = some (.assign op target value c.loc, c₃) := by
  rw [exprWith, bind_here_apply, bind_of_eq_some htarget]
  refine choice_of_some ?_ _
  rw [assignFrom, bind_of_eq_some hop, bind_of_eq_some hvalue]
  rfl

end Assign

section Next

variable {t : Token} {r : List Char} (ht : t.Follows) (hnext : Next t r) (n : Nat)
  (inner : Parser Expr)
include ht hnext

theorem refuses_postfixOp (hbond : t.bond ≠ 14) : Refuses (spaced (postfixOp n inner)) r :=
  hnext.refuses fun _ hm l => Token.postfixOp_eq_none ht hm hbond n inner l

theorem refuses_link {k : Nat} (hk : k ≤ 10) (hbond : k < 10 → t.bond ≠ 3 + k)
    (tighter : List (List (BinaryOp × List Char))) :
    Refuses (link n inner (levelAt k) tighter) r := by
  refine Refuses.bind ?_
  obtain hlt | rfl := Nat.lt_or_eq_of_le hk
  · exact hnext.refuses fun _ hm l => Token.binaryOp_eq_none ht hm hlt (hbond hlt) l
  · exact hnext.refuses fun _ _ _ => rfl

omit n inner

theorem refuses_question (hbond : t.bond ≠ 2) : Refuses (spaced (symbol "?")) r :=
  hnext.refuses fun _ hm l => Token.question_eq_none ht hm hbond l

theorem refuses_assignOp (hbond : t.bond ≠ 1) : Refuses (spaced assignOp) r :=
  hnext.refuses fun _ hm l => Token.assignOp_eq_none ht hm hbond l

end Next

end Parser

end AttrCheck
