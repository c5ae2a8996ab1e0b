import AttrCheck.Proofs.LexemeReading

/-! Expressions, and the attribute arguments made of them, are read off the text as they stand
there, whatever the allowance. -/

namespace AttrCheck

namespace Parser

theorem advances_frontOp : Advances frontOp := by
  have hs (s : String) (op : UnaryOp) : Advances (symbol s *> pure op) :=
    (advances_symbol s).seqRight (advances_pure op)
  have hb (s : String) (op : UnaryOp) : Advances (symbolNotBefore s ['='] *> pure op) :=
    (advances_symbolNotBefore s _).seqRight (advances_pure op)
  exact (hs _ _).first <| (hs _ _).first <| (hb _ _).first <| (hb _ _).first <|
    (hb _ _).first (hb _ _).last

theorem advances_binaryOp (level : List (BinaryOp × List Char)) : Advances (binaryOp level) := by
  refine .firstOf fun p hp => ?_
  obtain ⟨⟨op, bad⟩, _, rfl⟩ := List.mem_map.mp hp
  exact (advances_symbolNotBefore op.symbol bad).seqRight (advances_pure op)

theorem advances_assignOp : Advances assignOp := by
  refine .firstOf fun p hp => ?_
  obtain ⟨s, _, rfl⟩ := List.mem_map.mp hp
  exact (advances_symbolNotBefore s _).seqRight (advances_pure s)

theorem advances_boolWord : Advances boolWord :=
  ((advances_theWord _).seqRight (advances_pure _)).first
    ((advances_theWord _).seqRight (advances_pure _)).last

variable {n : Nat} {inner : Parser Expr}

theorem advances_arguments (h : Advances inner) : Advances (arguments n inner) :=
  ((h.commaList n).default []).parens

theorem advances_primary (h : Advances inner) : Advances (primary inner) := by
  refine advances_here.bind fun start => ?_
  exact (advances_number.bind fun _ => advances_pure _).first <|
    (advances_stringLiteral.bind fun _ => advances_pure _).first <|
    (advances_boolWord.bind fun _ => advances_pure _).first <|
    (h.parens.bind fun _ => advances_pure _).first
    (consumes_name.advances.bind fun _ => advances_pure _).last

theorem advances_postfixOp (h : Advances inner) : Advances (postfixOp n inner) :=
  ((advances_arguments h).bind fun _ => advances_pure _).first <|
    ((advances_symbol _).seqRight (advances_pure _)).first
    ((advances_symbol _).seqRight (advances_pure _)).last

theorem advances_postfixExpr (h : Advances inner) : Advances (postfixExpr n inner) :=
  advances_here.bind fun _ => (advances_primary h).bind fun _ =>
    ((advances_postfixOp h).spaced.many n).bind fun _ => advances_pure _

theorem advances_unary (h : Advances inner) : Advances (unary n inner) := by
  have hfront := advances_here.bind fun start => advances_frontOp.bind fun op =>
    advances_layout.bind fun _ => advances_pure (op, start)
  exact (hfront.many n).bind fun _ => (advances_postfixExpr h).bind fun _ => advances_pure _

theorem advances_chainFrom (h : Advances inner) (levels : List (List (BinaryOp × List Char))) :
    ∀ start first, Advances (chainFrom n inner start first levels) := by
  induction levels with
  | nil => exact fun start first => advances_pure first
  | cons level tighter ih =>
    intro start first
    refine (ih start first).bind fun lhs => (Advances.many ?_ n).bind fun rest => advances_pure _
    exact (advances_binaryOp level).spaced.bind fun _ => advances_layout.bind fun _ =>
      advances_here.bind fun loc => (advances_unary h).bind fun operand =>
        (ih loc operand).bind fun _ => advances_pure _

theorem advances_conditionalFrom (h : Advances inner) (start : Loc) (first : Expr) :
    Advances (conditionalFrom n inner start first) := by
  refine (advances_chainFrom h _ start first).bind fun cond =>
    (Advances.many ?_ n).bind fun arms => advances_pure _
  exact (advances_symbol _).spaced.bind fun _ => h.spaced.bind fun _ =>
    (advances_symbol _).spaced.bind fun _ => advances_layout.bind fun _ =>
      advances_here.bind fun loc => (advances_unary h).bind fun operand =>
        (advances_chainFrom h _ loc operand).bind fun _ => advances_pure _

theorem advances_assignFrom (h : Advances inner) (start : Loc) (target : Expr) :
    Advances (assignFrom inner start target) :=
  advances_assignOp.spaced.bind fun _ => h.spaced.bind fun _ => advances_pure _

theorem advances_expr (n : Nat) : Advances (expr n) := by
  induction n with
  | zero => exact advances_failure
  | succ n ih =>
    exact advances_here.bind fun start => (advances_unary ih).bind fun operand =>
      (advances_assignFrom ih start operand).orElse (advances_conditionalFrom ih start operand)

end Parser

end AttrCheck
