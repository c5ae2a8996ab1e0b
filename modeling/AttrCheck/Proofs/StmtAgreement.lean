import AttrCheck.Proofs.GrammarAgreement

/-! Two readings that take lexemes off their texts together do so with statements, functions and
variables. A brace may change how they stand to each other, as long as the closing one takes back
what the opening one did. -/

namespace AttrCheck

namespace Pairing

def stmtWords : List String :=
  ["case", "default", "if", "else", "switch", "while", "do", "for", "break", "continue", "return"]

structure Fluent (B : Pairing) : Prop extends Lawful B where
  stmtWord : ∀ s ∈ stmtWords, ∀ same k, Parser.Agree B same False k (.keyword s) (.keyword s)
  semicolon : ∀ same k, Parser.Agree B same False k (.symbol ";") (.symbol ";")
  directive : ∀ same k, Parser.Agree B same False k .loopDirective .loopDirective
  lineEnd : ∀ same k, Parser.Agree B same False k .lineEnd .lineEnd

structure Nested (B : Nat → Pairing) : Prop where
  fluent : ∀ j, (B j).Fluent
  opening : ∀ j same k,
    Parser.Across (B j) (B (j + 1)) same False k (.symbol "\x7b") (.symbol "\x7b")
  closing : ∀ j same k,
    Parser.Across (B (j + 1)) (B j) same False k (.symbol "\x7d") (.symbol "\x7d")

end Pairing

namespace Parser

variable {α : Type} {A B C : Pairing} {same bare : Prop} {k n m : Nat}

theorem Agree.across {p q : Parser α} (h : Agree B same bare k p q) : Across B B same bare k p q :=
  h

theorem agree_spacedSymbol (hB : B.Lawful) {s : String} (hs : s ∈ Pairing.symbols) :
    Agree B same bare k (spaced (symbol s)) (spaced (symbol s)) :=
  Agree.spaced hB (agree_symbol hB hs)

section Declaration

variable (hA : A.Lawful) (hn : k ≤ n) (hm : k ≤ m)
include hA hn hm

theorem across_variableDecl
    (hsemicolon : ∀ same, Across A C same False k (symbol ";") (symbol ";")) :
    Across A C same bare k (variableDecl n) (variableDecl m) := by
  have hname (s : Prop) : Agree A s False k (spaced name) (spaced name) :=
    Agree.spaced hA (agree_name hA)
  have hinit (s : Prop) : Agree A s False k (maybe (initializer n)) (maybe (initializer m)) :=
    (agree_initializer hA hn hm).maybe
  exact agree_here.across.bind fun _ _ => (agree_typeName hA hn hm).across.bind fun _ _ =>
    (hname _).across.bind fun _ _ => (agree_layout hA).across.seq <|
      (hinit _).across.bind fun _ _ => (hsemicolon _).seq <| agree_pure
        fun ⟨⟨⟨⟨_, hloc⟩, htype⟩, hname⟩, hinit⟩ => by rw [hloc, htype, hname, hinit]

end Declaration

section Specifier

variable {inner inner' : Parser Expr} (hB : B.Fluent) (h : ∀ s, Agree B s False k inner inner')
  (ha : Advances inner) (hn : k < n) (hm : k < m)
include hB h ha hn hm

theorem agree_loopSpecifier :
    Agree B same bare (k + 1) (loopSpecifier n inner) (loopSpecifier m inner') := by
  have hoption (s : Prop) : Agree B s False k (loopOption inner) (loopOption inner') :=
    agree_loopOption hB.toLawful h
  have hmore (s : Prop) : Agree B s False k (many (loopOption inner) n)
      (many (loopOption inner') m) :=
    .many hoption (consumes_loopOption ha) (Nat.le_of_lt hn) (Nat.le_of_lt hm)
  have hblanks (s : Prop) : Agree B s False k (run Text.isInlineBlank) (run Text.isInlineBlank) :=
    hB.blanks _ (fun _ => Text.isBlank_of_isInlineBlank) s k
  exact agree_here.bind fun _ _ => (hB.directive _ _).nextSeq consumes_loopDirective <|
    (hoption _).bind fun _ _ => (hmore _).bind fun _ _ => (hblanks _).seq <|
      (hB.lineEnd _ _).seq <| agree_pure fun ⟨⟨⟨_, hstart⟩, hfirst⟩, hmore⟩ => by
        rw [hstart, hfirst, hmore]

theorem agree_anySpecifier :
    Agree B same bare (k + 1) (anySpecifier n inner) (anySpecifier m inner') :=
  (agree_bracketSpecifier hB.toLawful h ha hn hm).first <|
    (agree_gnuSpecifier hB.toLawful h ha hn hm).first <|
    (agree_declspecSpecifier hB.toLawful h ha hn hm).first
      (agree_loopSpecifier hB h ha hn hm).last

theorem agree_specifiers :
    Agree B same bare (k + 1) (specifiers n inner) (specifiers m inner') := by
  have hspec (s bare : Prop) : Agree B s bare (k + 1) (anySpecifier n inner)
      (anySpecifier m inner') := agree_anySpecifier hB h ha hn hm
  have hmore (s : Prop) : Agree B s False (k + 1) (spaced (anySpecifier n inner))
      (spaced (anySpecifier m inner')) := Agree.spaced hB.toLawful (hspec s True)
  exact (hspec _ _).bind fun _ _ =>
    (Agree.many hmore (consumes_anySpecifier ha).spaced hn hm).bind fun _ _ =>
      agree_pure fun ⟨⟨_, hfirst⟩, hmore⟩ => by rw [hfirst, hmore]

end Specifier

section Leaf

variable (hB : B.Fluent)
include hB

theorem agree_semicolon : Agree B same bare k (spaced (symbol ";")) (spaced (symbol ";")) :=
  Agree.spaced hB.toLawful ((hB.semicolon same k).settle nofun)

theorem agree_nullStmt : Agree B same bare k nullStmt nullStmt :=
  agree_here.bind fun _ _ => (hB.semicolon _ k).seq <| agree_pure fun hs => by rw [hs.2]

theorem agree_wordStmt {word : String} (hw : word ∈ Pairing.stmtWords) (make : Loc → Stmt) :
    Agree B same bare k (wordStmt word make) (wordStmt word make) :=
  agree_here.bind fun _ _ => (hB.stmtWord word hw _ k).seq <| (agree_semicolon hB).seq <|
    agree_pure fun hs => by rw [hs.2]

variable (hn : k ≤ n) (hm : k ≤ m)
include hn hm

theorem agree_variableDecl : Agree B same bare k (variableDecl n) (variableDecl m) :=
  across_variableDecl hB.toLawful hn hm fun same => hB.semicolon same k

theorem agree_declStmt : Agree B same bare k (declStmt n) (declStmt m) :=
  (agree_variableDecl hB hn hm).bind fun _ _ => agree_pure fun hs => by rw [hs.2]

theorem agree_exprStmt : Agree B same bare k (exprStmt n) (exprStmt m) :=
  agree_here.bind fun _ _ => (agree_expr hB.toLawful hn hm).bind fun _ _ =>
    (agree_semicolon hB).seq <| agree_pure fun ⟨⟨_, hstart⟩, he⟩ => by rw [hstart, he]

theorem agree_loopInit : Agree B same bare k (loopInit n) (loopInit m) :=
  ((agree_declStmt hB hn hm).map fun _ => rfl).first <|
    ((agree_exprStmt hB hn hm).map fun _ => rfl).first
    ((agree_nullStmt hB).seqRight (agree_pure fun _ => rfl)).last

theorem agree_maybeExpr :
    Agree B same bare k (spaced (maybe (expr n))) (spaced (maybe (expr m))) :=
  Agree.spaced hB.toLawful (agree_expr hB.toLawful hn hm).maybe

theorem agree_returnStmt : Agree B same bare k (returnStmt n) (returnStmt m) :=
  agree_here.bind fun _ _ => (hB.stmtWord "return" (by decide) _ k).seq <|
    (agree_maybeExpr hB hn hm).bind fun _ _ => (agree_semicolon hB).seq <|
      agree_pure fun ⟨⟨_, hstart⟩, hvalue⟩ => by rw [hstart, hvalue]

end Leaf

section Stmt

variable {sub sub' : Parser Stmt}

theorem across_compoundStmt (hB : B.Lawful)
    (hopen : ∀ same, Across A B same False (k + 1) (symbol "\x7b") (symbol "\x7b"))
    (hclose : ∀ same, Across B C same False k (symbol "\x7d") (symbol "\x7d"))
    (h : ∀ s, Agree B s False k sub sub') (hs : Consumes sub) (hn : k ≤ n) (hm : k ≤ m) :
    Across A C same bare (k + 1) (compoundStmt n sub) (compoundStmt m sub') := by
  have hround (s : Prop) : Agree B s False k (sub <* layout) (sub' <* layout) :=
    (h s).bind fun _ _ => (agree_layout hB).seq <| agree_pure fun hs => hs.2
  have hbody (s : Prop) : Agree B s False k (many (sub <* layout) n) (many (sub' <* layout) m) :=
    .many hround (hs.seqLeft advances_layout) hn hm
  exact agree_here.across.bind fun _ _ => (hopen _).nextSeq (consumes_symbol (by decide)) <|
    (agree_layout hB).across.seq <| (hbody _).across.bind fun _ _ => (hclose _).seq <|
      agree_pure fun ⟨⟨_, hstart⟩, hbody⟩ => by rw [hstart, hbody]

variable (hB : B.Fluent)
include hB

theorem Agree.worded {word : String} {q q' : Loc → Parser Stmt} (hw : word ∈ Pairing.stmtWords)
    (h : ∀ a b, Agree B (same ∧ a = b) False k (q a) (q' b)) :
    Agree B same bare (k + 1) (do let start ← here; keyword word; q start)
      (do let start ← here; keyword word; q' start) := by
  have hne : ∀ s ∈ Pairing.stmtWords, s.toList ≠ [] := by decide
  exact agree_here.bind fun a b =>
    (hB.stmtWord word hw _ _).nextSeq (consumes_keyword (hne word hw)) (h a b)

variable (h : ∀ s, Agree B s False k sub sub') (hn : k < n) (hm : k < m)
include h

theorem agree_spacedStmt : Agree B same bare k (spaced sub) (spaced sub') :=
  Agree.spaced hB.toLawful ((h same).settle nofun)

theorem agree_defaultStmt : Agree B same bare (k + 1) (defaultStmt sub) (defaultStmt sub') :=
  .worded hB (by decide) fun _ _ => (agree_spacedSymbol hB.toLawful (by decide)).seq <|
    (agree_spacedStmt hB h).bind fun _ _ => agree_pure fun ⟨⟨_, hstart⟩, hsub⟩ => by
      rw [hstart, hsub]

include hn hm

theorem agree_caseStmt : Agree B same bare (k + 1) (caseStmt n sub) (caseStmt m sub') :=
  .worded hB (by decide) fun _ _ =>
    (agree_spacedExpr hB.toLawful (Nat.le_of_lt hn) (Nat.le_of_lt hm)).bind fun _ _ =>
      (agree_spacedSymbol hB.toLawful (by decide)).seq <| (agree_spacedStmt hB h).bind fun _ _ =>
        agree_pure fun ⟨⟨⟨_, hstart⟩, hvalue⟩, hsub⟩ => by rw [hstart, hvalue, hsub]

theorem agree_ifStmt : Agree B same bare (k + 1) (ifStmt n sub) (ifStmt m sub') := by
  have hword (s : Prop) : Agree B s False k (spaced (keyword "else")) (spaced (keyword "else")) :=
    Agree.spaced hB.toLawful ((hB.stmtWord "else" (by decide) s k).settle nofun)
  exact .worded hB (by decide) fun _ _ =>
    (agree_condition hB.toLawful (Nat.le_of_lt hn) (Nat.le_of_lt hm)).bind fun _ _ =>
      (agree_spacedStmt hB h).bind fun _ _ =>
        ((hword _).seq (agree_spacedStmt hB h)).maybe.bind fun _ _ =>
          agree_pure fun ⟨⟨⟨⟨_, hstart⟩, hcond⟩, hyes⟩, hno⟩ => by rw [hstart, hcond, hyes, hno]

theorem agree_conditionStmt {word : String} (hw : word ∈ Pairing.stmtWords)
    (make : Expr → Stmt → Loc → Stmt) :
    Agree B same bare (k + 1) (conditionStmt n sub word make) (conditionStmt m sub' word make) :=
  .worded hB hw fun _ _ =>
    (agree_condition hB.toLawful (Nat.le_of_lt hn) (Nat.le_of_lt hm)).bind fun _ _ =>
      (agree_spacedStmt hB h).bind fun _ _ => agree_pure fun ⟨⟨⟨_, hstart⟩, hcond⟩, hbody⟩ => by
        rw [hstart, hcond, hbody]

theorem agree_doStmt : Agree B same bare (k + 1) (doStmt n sub) (doStmt m sub') := by
  have hword (s : Prop) :
      Agree B s False k (spaced (keyword "while")) (spaced (keyword "while")) :=
    Agree.spaced hB.toLawful ((hB.stmtWord "while" (by decide) s k).settle nofun)
  exact .worded hB (by decide) fun _ _ => (agree_spacedStmt hB h).bind fun _ _ =>
    (hword _).seq <|
      (agree_condition hB.toLawful (Nat.le_of_lt hn) (Nat.le_of_lt hm)).bind fun _ _ =>
        (agree_semicolon hB).seq <| agree_pure fun ⟨⟨⟨_, hstart⟩, hbody⟩, hcond⟩ => by
          rw [hstart, hbody, hcond]

theorem agree_rangeForStmt :
    Agree B same bare (k + 1) (rangeForStmt n sub) (rangeForStmt m sub') := by
  have htype (s : Prop) : Agree B s False k (spaced (typeName n)) (spaced (typeName m)) :=
    Agree.spaced hB.toLawful (agree_typeName hB.toLawful (Nat.le_of_lt hn) (Nat.le_of_lt hm))
  have hvar (s : Prop) : Agree B s False k (spaced name) (spaced name) :=
    Agree.spaced hB.toLawful (agree_name hB.toLawful)
  exact .worded hB (by decide) fun _ _ => (agree_spacedSymbol hB.toLawful (by decide)).seq <|
    (htype _).bind fun _ _ => (hvar _).bind fun _ _ =>
      (agree_spacedSymbol hB.toLawful (by decide)).seq <|
        (agree_spacedExpr hB.toLawful (Nat.le_of_lt hn) (Nat.le_of_lt hm)).bind fun _ _ =>
          (agree_spacedSymbol hB.toLawful (by decide)).seq <|
            (agree_spacedStmt hB h).bind fun _ _ =>
              agree_pure fun ⟨⟨⟨⟨⟨_, hstart⟩, htype⟩, hvar⟩, hrange⟩, hbody⟩ => by
                rw [hstart, htype, hvar, hrange, hbody]

theorem agree_forStmt : Agree B same bare (k + 1) (forStmt n sub) (forStmt m sub') := by
  have hinit (s : Prop) : Agree B s False k (spaced (loopInit n)) (spaced (loopInit m)) :=
    Agree.spaced hB.toLawful (agree_loopInit hB (Nat.le_of_lt hn) (Nat.le_of_lt hm))
  exact .worded hB (by decide) fun _ _ => (agree_spacedSymbol hB.toLawful (by decide)).seq <|
    (hinit _).bind fun _ _ =>
      (agree_maybeExpr hB (Nat.le_of_lt hn) (Nat.le_of_lt hm)).bind fun _ _ =>
        (agree_semicolon hB).seq <|
          (agree_maybeExpr hB (Nat.le_of_lt hn) (Nat.le_of_lt hm)).bind fun _ _ =>
            (agree_spacedSymbol hB.toLawful (by decide)).seq <|
              (agree_spacedStmt hB h).bind fun _ _ =>
                agree_pure fun ⟨⟨⟨⟨⟨_, hstart⟩, hinit⟩, hcond⟩, hstep⟩, hbody⟩ => by
                  rw [hstart, hinit, hcond, hstep, hbody]

theorem agree_annotatedStmt :
    Agree B same bare (k + 1) (annotatedStmt n sub) (annotatedStmt m sub') := by
  have hexpr (s : Prop) : Agree B s False k (expr n) (expr m) :=
    agree_expr hB.toLawful (Nat.le_of_lt hn) (Nat.le_of_lt hm)
  exact (agree_specifiers hB hexpr (advances_expr n) hn hm).next
    (consumes_specifiers (advances_expr n)) fun _ _ => (agree_spacedStmt hB h).bind fun _ _ =>
      agree_pure fun ⟨⟨_, hspec⟩, hsub⟩ => by rw [hspec, hsub]

theorem agree_stmtWith (hcompound : Agree B same bare (k + 1) (compoundStmt n sub)
    (compoundStmt m sub')) :
    Agree B same bare (k + 1) (stmtWith n sub) (stmtWith m sub') := by
  have hle : k + 1 ≤ n := hn
  have hle' : k + 1 ≤ m := hm
  exact (agree_annotatedStmt hB h hn hm).first <| (agree_caseStmt hB h hn hm).first <|
    (agree_defaultStmt hB h).first <| hcompound.first <| (agree_ifStmt hB h hn hm).first <|
    (agree_conditionStmt hB h hn hm (by decide) .switch).first <|
    (agree_conditionStmt hB h hn hm (by decide) .whileLoop).first <|
    (agree_doStmt hB h hn hm).first <| (agree_rangeForStmt hB h hn hm).first <|
    (agree_forStmt hB h hn hm).first <| (agree_wordStmt hB (by decide) .brk).first <|
    (agree_wordStmt hB (by decide) .cont).first <| (agree_returnStmt hB hle hle').first <|
    (agree_declStmt hB hle hle').first <| (agree_nullStmt hB).first
      (agree_exprStmt hB hle hle').last

end Stmt

theorem agree_stmt {B : Nat → Pairing} (hB : Pairing.Nested B) (j : Nat) (hn : k ≤ n) (hm : k ≤ m) :
    Agree (B j) same bare k (stmt n) (stmt m) := by
  suffices h : ∀ j s, Agree (B j) s False k (stmt n) (stmt m) from (h j same).settle nofun
  induction k generalizing n m with
  | zero => exact fun _ _ c _ _ _ hc => absurd hc (Nat.not_lt_zero _)
  | succ k ih =>
    obtain ⟨n, rfl⟩ := Nat.exists_eq_add_of_le' (Nat.le_trans (Nat.le_add_left 1 k) hn)
    obtain ⟨m, rfl⟩ := Nat.exists_eq_add_of_le' (Nat.le_trans (Nat.le_add_left 1 k) hm)
    have hsub := ih (Nat.le_of_succ_le_succ hn) (Nat.le_of_succ_le_succ hm)
    have hcompound (j : Nat) (s : Prop) : Agree (B j) s False (k + 1)
        (compoundStmt (n + 1) (stmt n)) (compoundStmt (m + 1) (stmt m)) :=
      across_compoundStmt (hB.fluent (j + 1)).toLawful (fun s => hB.opening j s _)
        (fun s => hB.closing j s _) (hsub (j + 1)) (consumes_stmt n) (Nat.le_of_succ_le hn)
        (Nat.le_of_succ_le hm)
    exact fun j s => agree_stmtWith (hB.fluent j) (hsub j) hn hm (hcompound j s)

def functionHead (n : Nat) : Parser (Stmt → Function) := do
  let loc ← here
  let templateParams ← orElse (templateHeader n) []
  let type ← typeName n
  let name ← spaced name
  let params ← spaced (parens (orElse (commaList (param n) n) []))
  return fun body =>
    { name, body, params := params.filterMap id, templateParams, returnType := type.text, loc }

theorem function_eq (n : Nat) : function n = (do
    let make ← functionHead n
    let body ← spaced (compoundStmt n (stmt n))
    return make body) := by
  simp only [function, functionHead, bind_assoc, pure_bind]

section Unit

variable (hA : A.Lawful) (hn : k ≤ n) (hm : k ≤ m)
include hA hn hm

theorem agree_templateHeader : Agree A same False k (templateHeader n) (templateHeader m) := by
  have hparam (s : Prop) : Agree A s True k templateParam templateParam :=
    (agree_oneWordOf hA (by decide)).seq (Agree.spaced hA (agree_name hA))
  have hadvances : Advances templateParam :=
    (advances_oneWordOf _).bind fun _ => consumes_name.advances.spaced
  exact (agree_word hA (by decide)).seq <| (agree_spacedSymbol hA (by decide)).seq <|
    (Agree.spaced hA (Agree.commaList hA hparam hadvances hn hm)).bind fun _ _ =>
      (agree_spacedSymbol hA (by decide)).seq <| (agree_layout hA).seq <|
        agree_pure fun hs => hs.2

theorem agree_params : Agree A same False k
    (spaced (parens (orElse (commaList (param n) n) [])))
    (spaced (parens (orElse (commaList (param m) m) []))) := by
  have hparam (s : Prop) : Agree A s True k (param n) (param m) :=
    (agree_typeName hA hn hm).seq (Agree.spaced hA (agree_name hA)).maybe
  have hadvances : Advances (param n) :=
    (advances_typeName n).bind fun _ => consumes_name.advances.spaced.maybe
  exact Agree.spaced hA <| .mono (.parens hA
    ((Agree.commaList hA hparam hadvances hn hm).default [])) (Nat.le_succ k)

theorem agree_functionHead : Agree A same False k (functionHead n) (functionHead m) :=
  agree_here.bind fun _ _ => ((agree_templateHeader hA hn hm).default []).bind fun _ _ =>
    (agree_typeName hA hn hm).bind fun _ _ => (Agree.spaced hA (agree_name hA)).bind fun _ _ =>
      (agree_params hA hn hm).bind fun _ _ => agree_pure
        fun ⟨⟨⟨⟨⟨_, hloc⟩, htemplate⟩, htype⟩, hname⟩, hparams⟩ => by
          rw [hloc, htemplate, htype, hname, hparams]

theorem across_topLevel
    (hbody : ∀ same, Across A C same False k (compoundStmt n (stmt n)) (compoundStmt m (stmt m)))
    (hsemicolon : ∀ same, Across A C same False k (symbol ";") (symbol ";")) :
    Across A C same False k (topLevel n) (topLevel m) := by
  have hfunction : Across A C same False k (function n) (function m) := by
    rw [function_eq, function_eq]
    exact (agree_functionHead hA hn hm).across.bind fun _ _ =>
      Across.bind ((agree_layout hA).across.seq (hbody _)) fun _ _ =>
        agree_pure fun ⟨⟨_, hmake⟩, hbody⟩ => by rw [hmake, hbody]
  have hglobal : Across A C same False k (variableDecl n) (variableDecl m) :=
    across_variableDecl hA hn hm hsemicolon
  exact (hfunction.map fun _ => rfl).orElse (hglobal.map fun _ => rfl)

end Unit

end Parser

end AttrCheck
