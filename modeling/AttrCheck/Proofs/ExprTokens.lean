import AttrCheck.Proofs.TokenSequence

/-! Expressions as sequences of tokens. An expression can be written down if its leaves can and no
part of it binds looser than its place allows, so that parentheses stand where they are needed. -/

namespace AttrCheck

theorem map_eq_of_forall₂ {α β : Type} {f : α → β} {as bs : List α}
    (h : List.Forall₂ (fun a b => f b = f a) as bs) : bs.map f = as.map f := by
  induction h with
  | nil => rfl
  | cons hb _ ih => rw [List.map_cons, List.map_cons, hb, ih]

namespace Expr

mutual

def bare : Expr → Expr
  | int value text _ => .int value text .unknown
  | string value _ => .string value .unknown
  | name n b _ => .name n b .unknown
  | paren inner _ => .paren inner.bare .unknown
  | unary op operand _ => .unary op operand.bare .unknown
  | binary op lhs rhs _ => .binary op lhs.bare rhs.bare .unknown
  | conditional c yes no _ => .conditional c.bare yes.bare no.bare .unknown
  | call callee args _ => .call callee.bare (bareAll args) .unknown
  | assign op target value _ => .assign op target.bare value.bare .unknown

def bareAll : List Expr → List Expr
  | [] => []
  | e :: es => e.bare :: bareAll es

end

theorem bareAll_eq_map (es : List Expr) : bareAll es = es.map bare := by
  induction es with
  | nil => rfl
  | cons e es ih => rw [bareAll, ih, List.map_cons]

theorem bareAll_eq_of_forall₂ {es es' : List Expr}
    (h : List.Forall₂ (fun e e' => e'.bare = e.bare) es es') : bareAll es' = bareAll es := by
  rw [bareAll_eq_map, bareAll_eq_map, map_eq_of_forall₂ h]

mutual

def tokens : Expr → List Token
  | int _ text _ => [if text ∈ ["true", "false"] then .word text else .number text]
  | string value _ => [.string value]
  | name n _ _ => [.word n]
  | paren inner _ => .mark "(" :: (inner.tokens ++ [.mark ")"])
  | unary op operand _ =>
    if op.isFront then .mark op.symbol :: operand.tokens else operand.tokens ++ [.mark op.symbol]
  | binary op lhs rhs _ => lhs.tokens ++ .binary op :: rhs.tokens
  | conditional c yes no _ =>
    c.tokens ++ .mark "?" :: (yes.tokens ++ .mark ":" :: no.tokens)
  | call callee args _ => callee.tokens ++ .mark "(" :: ((commaTokens args).tail ++ [.mark ")"])
  | assign op target value _ => target.tokens ++ .mark op :: value.tokens

def commaTokens : List Expr → List Token
  | [] => []
  | e :: es => .mark "," :: (e.tokens ++ commaTokens es)

end

theorem commaTokens_eq (es : List Expr) :
    commaTokens es = es.flatMap fun e => .mark "," :: e.tokens := by
  induction es with
  | nil => rfl
  | cons e es ih => rw [commaTokens, ih, List.flatMap_cons, List.cons_append]

/-- How tightly the outermost operator binds, from assignments up to operators behind an operand;
where there is none, nothing binds tighter. -/
def rank : Expr → Nat
  | assign _ _ _ _ => 1
  | conditional _ _ _ _ => 2
  | binary op _ _ _ => 3 + op.level
  | unary op _ _ => if op.isFront then 13 else 14
  | call _ _ _ => 14
  | int _ _ _ | string _ _ | name _ _ _ | paren _ _ => 15

inductive Written : Expr → Prop where
  | number {n : Nat} {s : String} {l : Loc} (h : wordNumber? s.toList = some n) :
    Written (.int n s l)
  | yes {l : Loc} : Written (.int 1 "true" l)
  | no {l : Loc} : Written (.int 0 "false" l)
  | string {s : String} {l : Loc} (h : IsStringBody s) : Written (.string s l)
  | name {s : String} {l : Loc} (h : IsName s) : Written (.name s .runtime l)
  | paren {e : Expr} {l : Loc} (he : Written e) : Written (.paren e l)
  | front {op : UnaryOp} {e : Expr} {l : Loc} (hop : op.isFront = true) (he : Written e)
    (hrank : 13 ≤ e.rank) : Written (.unary op e l)
  | back {op : UnaryOp} {e : Expr} {l : Loc} (hop : op.isFront = false) (he : Written e)
    (hrank : 14 ≤ e.rank) : Written (.unary op e l)
  | binary {op : BinaryOp} {a b : Expr} {l : Loc} (ha : Written a) (hb : Written b)
    (hleft : 3 + op.level ≤ a.rank) (hright : 3 + op.level < b.rank) : Written (.binary op a b l)
  | conditional {c yes no : Expr} {l : Loc} (hc : Written c) (hyes : Written yes)
    (hno : Written no) (hleft : 2 < c.rank) (hright : 2 ≤ no.rank) :
    Written (.conditional c yes no l)
  | call {f : Expr} {args : List Expr} {l : Loc} (hf : Written f) (hargs : ∀ e ∈ args, Written e)
    (hrank : 14 ≤ f.rank) : Written (.call f args l)
  | assign {op : String} {target value : Expr} {l : Loc} (hop : op ∈ assignSymbols)
    (htarget : Written target) (hvalue : Written value) (hrank : 13 ≤ target.rank) :
    Written (.assign op target value l)

theorem tokens_number {s : String} {n : Nat} (h : wordNumber? s.toList = some n) (m : Int)
    (l : Loc) : (Expr.int m s l).tokens = [.number s] := by
  have hword : ∀ w ∈ ["true", "false"], wordNumber? w.toList = none := by decide
  rw [tokens, if_neg fun hs => nomatch (hword s hs).symm.trans h]

theorem Written.exists_opener {e : Expr} (h : e.Written) : ∃ t ts, e.tokens = t :: ts ∧ t.Opens ∧
    (14 ≤ e.rank → ∀ op : UnaryOp, t ≠ .mark op.symbol) := by
  have hleft {a : Expr} {us : List Token} {k : Nat} (ha : ∃ t ts, a.tokens = t :: ts ∧ t.Opens ∧
      (14 ≤ a.rank → ∀ op : UnaryOp, t ≠ .mark op.symbol)) (hk : 14 ≤ k → 14 ≤ a.rank) :
      ∃ t ts, a.tokens ++ us = t :: ts ∧ t.Opens ∧
        (14 ≤ k → ∀ op : UnaryOp, t ≠ .mark op.symbol) := by
    obtain ⟨t, ts, hts, hopens, hfront⟩ := ha
    exact ⟨t, ts ++ us, by rw [hts, List.cons_append], hopens, fun h => hfront (hk h)⟩
  have hparen : ∀ op ∈ UnaryOp.all, "(" ≠ op.symbol := by decide
  have hfronts : ∀ op ∈ UnaryOp.all, op.symbol ∈ openers := by decide
  have hall (op : UnaryOp) : op ∈ UnaryOp.all := by cases op <;> decide
  induction h with
  | number h => exact ⟨_, _, tokens_number h _ _, trivial, fun _ _ => nofun⟩
  | yes => exact ⟨.word "true", [], by rw [tokens, if_pos (by decide)], trivial, fun _ _ => nofun⟩
  | no => exact ⟨.word "false", [], by rw [tokens, if_pos (by decide)], trivial, fun _ _ => nofun⟩
  | string | name => exact ⟨_, _, rfl, trivial, fun _ _ => nofun⟩
  | paren =>
    refine ⟨_, _, rfl, List.mem_cons_self, fun _ op h => ?_⟩
    exact hparen op (hall op) (Token.mark.inj h)
  | @front op e l hop =>
    refine ⟨.mark op.symbol, e.tokens, by rw [tokens, if_pos hop], hfronts op (hall op), ?_⟩
    intro hrank
    simp [rank, hop] at hrank
  | @back op e l hop he hrank ih =>
    rw [tokens, hop, if_neg Bool.false_ne_true]
    exact hleft ih fun _ => hrank
  | @binary op a b l ha hb _ _ ih =>
    have hlt := op.level_lt
    rw [tokens]
    refine hleft ih fun h => ?_
    simp only [rank] at h
    omega
  | conditional _ _ _ _ _ ih =>
    rw [tokens]
    exact hleft ih fun h => absurd (show 14 ≤ 2 from h) (by decide)
  | call _ _ hrank ih =>
    rw [tokens]
    exact hleft ih fun _ => hrank
  | assign _ _ _ _ ih =>
    rw [tokens]
    exact hleft ih fun h => absurd (show 14 ≤ 1 from h) (by decide)

theorem Written.valid {e : Expr} (h : e.Written) : ∀ t ∈ e.tokens, t.Valid := by
  have hsymbols : ∀ op ∈ UnaryOp.all, op.symbol ∈ Token.marks := by decide
  have hunary (op : UnaryOp) : op.symbol ∈ Token.marks := hsymbols op (by cases op <;> decide)
  have hassign : ∀ s ∈ assignSymbols, s ∈ Token.marks := by decide
  have hclose : ∀ t ∈ [Token.mark ")"], t.Valid :=
    Token.forall_valid_mark (by decide) Token.forall_valid_nil
  induction h with
  | number h =>
    rw [tokens_number h]
    exact List.forall_mem_singleton.mpr ⟨_, h⟩
  | yes | no =>
    rw [tokens, if_pos (by decide)]
    exact Token.forall_valid_word (by decide) Token.forall_valid_nil
  | string h => exact List.forall_mem_singleton.mpr h
  | name h => exact Token.forall_valid_word h.isWhole Token.forall_valid_nil
  | paren _ ih => exact Token.forall_valid_mark (by decide) (Token.forall_valid_append ih hclose)
  | @front op _ _ hop _ _ ih =>
    rw [tokens, if_pos hop]
    exact Token.forall_valid_mark (hunary op) ih
  | @back op _ _ hop _ _ ih =>
    rw [tokens, hop, if_neg Bool.false_ne_true]
    exact Token.forall_valid_append ih
      (Token.forall_valid_mark (hunary op) Token.forall_valid_nil)
  | binary _ _ _ _ iha ihb =>
    exact Token.forall_valid_append iha (List.forall_mem_cons.mpr ⟨trivial, ihb⟩)
  | conditional _ _ _ _ _ ihc ihyes ihno =>
    exact Token.forall_valid_append ihc (Token.forall_valid_mark (by decide)
      (Token.forall_valid_append ihyes (Token.forall_valid_mark (by decide) ihno)))
  | @call f args _ _ _ _ ihf ihargs =>
    have hargs : ∀ t ∈ commaTokens args, t.Valid := by
      rw [commaTokens_eq]
      intro t ht
      obtain ⟨e, he, ht⟩ := List.mem_flatMap.mp ht
      exact Token.forall_valid_mark (by decide) (ihargs e he) t ht
    exact Token.forall_valid_append ihf (Token.forall_valid_mark (by decide)
      (Token.forall_valid_append (fun t ht => hargs t (List.mem_of_mem_tail ht)) hclose))
  | assign hop _ _ _ ihtarget ihvalue =>
    exact Token.forall_valid_append ihtarget (Token.forall_valid_mark (hassign _ hop) ihvalue)

end Expr

end AttrCheck
