import AttrCheck.Proofs.Allowance
import AttrCheck.Proofs.StmtAgreement

/-! Any allowance above the number of characters left gives the same expression, specifier or
statement, and it is read off the same characters in whatever place they stand. -/

namespace AttrCheck

namespace Parser

variable {same : Prop} {k n m : Nat}

theorem alike_lineEnd : Alike same k lineEnd lineEnd :=
  ((alike_symbol _).seqRight (alike_run _)).maybe.seq <|
    (alike_symbol _).orElse (alike_notBefore _)

theorem fluent_plain (same : Prop) : (Pairing.plain same).Fluent where
  toLawful := lawful_plain same
  stmtWord s _ t _ := (alike_keyword s).agree t _
  semicolon t _ := (alike_symbol ";").agree t _
  directive t _ := alike_loopDirective.agree t _
  lineEnd t _ := alike_lineEnd.agree t _

theorem nested_plain (same : Prop) : Pairing.Nested fun _ => .plain same where
  fluent _ := fluent_plain same
  opening _ t _ := (alike_symbol _).agree t _
  closing _ t _ := (alike_symbol _).agree t _

theorem alike_expr (hn : k ≤ n) (hm : k ≤ m) : Alike same k (expr n) (expr m) :=
  agree_expr (lawful_plain same) hn hm

theorem alike_anySpecifier {inner inner' : Parser Expr} (h : Alike same k inner inner')
    (ha : Advances inner) (hn : k < n) (hm : k < m) :
    Alike same (k + 1) (anySpecifier n inner) (anySpecifier m inner') :=
  agree_anySpecifier (fluent_plain same) (fun s => h.agree s False) ha hn hm

theorem alike_stmt (hn : k ≤ n) (hm : k ≤ m) : Alike same k (stmt n) (stmt m) :=
  agree_stmt (nested_plain same) 0 hn hm

end Parser

end AttrCheck
