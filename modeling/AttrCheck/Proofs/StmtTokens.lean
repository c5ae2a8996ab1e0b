import AttrCheck.Proofs.ExprTokens
import AttrCheck.Proofs.Splice

/-! Statements as sequences of tokens. A statement can be written down if its parts can; what is read
as more of a part must not stand behind it, which an `else` does behind an open conditional. -/

namespace AttrCheck

def VarDecl.bare (d : VarDecl) : VarDecl := { d with init := d.init.map Expr.bare, loc := .unknown }

def Arg.bare : Arg → Arg
  | ident i => .ident { i with loc := .unknown }
  | expr e => .expr e.bare

def RawAttr.bare (a : RawAttr) : RawAttr :=
  { a with args := a.args.map (·.map Arg.bare), range := .unknown }

def Attr.bare : Attr → Attr
  | fallthrough _ => .fallthrough .unknown
  | hint h => .hint { h with range := .unknown }

namespace Stmt

mutual

def bare : Stmt → Stmt
  | null _ => .null .unknown
  | compound body _ => .compound (bareAll body) .unknown
  | expr e _ => .expr e.bare .unknown
  | decl d => .decl d.bare
  | ret value _ => .ret (value.map Expr.bare) .unknown
  | brk _ => .brk .unknown
  | cont _ => .cont .unknown
  | ifElse c yes none _ => .ifElse c.bare yes.bare none .unknown
  | ifElse c yes (some no) _ => .ifElse c.bare yes.bare (some no.bare) .unknown
  | switch c body _ => .switch c.bare body.bare .unknown
  | caseLabel value sub _ => .caseLabel value.bare sub.bare .unknown
  | defaultLabel sub _ => .defaultLabel sub.bare .unknown
  | forLoop none c step body _ =>
    .forLoop none (c.map Expr.bare) (step.map Expr.bare) body.bare .unknown
  | forLoop (some init) c step body _ =>
    .forLoop (some init.bare) (c.map Expr.bare) (step.map Expr.bare) body.bare .unknown
  | rangeFor var range body typeName _ => .rangeFor var range.bare body.bare typeName .unknown
  | whileLoop c body _ => .whileLoop c.bare body.bare .unknown
  | doWhile body c _ => .doWhile body.bare c.bare .unknown
  | attributed attrs sub _ _ => .attributed (attrs.map Attr.bare) sub.bare .unknown .unknown
  | annotated attrs sub _ _ => .annotated (attrs.map RawAttr.bare) sub.bare .unknown .unknown

def bareAll : List Stmt → List Stmt
  | [] => []
  | s :: ss => s.bare :: bareAll ss

end

theorem bareAll_eq_map (ss : List Stmt) : bareAll ss = ss.map bare := by
  induction ss with
  | nil => rfl
  | cons s ss ih => rw [bareAll, ih, List.map_cons]

end Stmt

def Function.bare (f : Function) : Function := { f with body := f.body.bare, loc := .unknown }

def SourceUnit.bare (u : SourceUnit) : SourceUnit :=
  { u with functions := u.functions.map Function.bare, globals := u.globals.map VarDecl.bare }

def Expr.optTokens : Option Expr → List Token
  | none => []
  | some e => e.tokens

def VarDecl.initTokens (d : VarDecl) : List Token :=
  match d.init with
  | none => []
  | some e => .mark "=" :: e.tokens

def VarDecl.tokens (d : VarDecl) : List Token :=
  .type d.typeName :: .word d.name :: (d.initTokens ++ [.mark ";"])

namespace RawAttr

def exprs (a : RawAttr) : List Expr :=
  a.args.filterMap fun
    | some (.expr e) => some e
    | _ => none

def nameTokens (a : RawAttr) : List Token :=
  match a.scope with
  | none => [.word a.name]
  | some s => [.word s, .mark "::", .word a.name]

def argTokens (a : RawAttr) : List Token :=
  if a.exprs.isEmpty then []
  else .mark "(" :: ((Expr.commaTokens a.exprs).tail ++ [.mark ")"])

def tokens (a : RawAttr) : List Token := a.nameTokens ++ a.argTokens

end RawAttr

namespace Stmt

def headTokens (word : String) (c : Expr) : List Token :=
  .word word :: .mark "(" :: (c.tokens ++ [.mark ")"])

mutual

def tokens : Stmt → List Token
  | null _ => [.mark ";"]
  | compound body _ => .mark "\x7b" :: (allTokens body ++ [.mark "\x7d"])
  | expr e _ => e.tokens ++ [.mark ";"]
  | decl d => d.tokens
  | ret value _ => .word "return" :: (Expr.optTokens value ++ [.mark ";"])
  | brk _ => [.word "break", .mark ";"]
  | cont _ => [.word "continue", .mark ";"]
  | ifElse c yes none _ => headTokens "if" c ++ yes.tokens
  | ifElse c yes (some no) _ => headTokens "if" c ++ (yes.tokens ++ .word "else" :: no.tokens)
  | switch c body _ => headTokens "switch" c ++ body.tokens
  | caseLabel value sub _ => .word "case" :: (value.tokens ++ .mark ":" :: sub.tokens)
  | defaultLabel sub _ => .word "default" :: .mark ":" :: sub.tokens
  | forLoop none c step body _ =>
    .word "for" :: .mark "(" :: .mark ";" :: (Expr.optTokens c ++ .mark ";" ::
      (Expr.optTokens step ++ .mark ")" :: body.tokens))
  | forLoop (some init) c step body _ =>
    .word "for" :: .mark "(" :: (init.tokens ++ (Expr.optTokens c ++ .mark ";" ::
      (Expr.optTokens step ++ .mark ")" :: body.tokens)))
  | rangeFor var range body typeName _ =>
    .word "for" :: .mark "(" :: .type typeName :: .word var :: .mark ":" ::
      (range.tokens ++ .mark ")" :: body.tokens)
  | whileLoop c body _ => headTokens "while" c ++ body.tokens
  | doWhile body c _ => .word "do" :: (body.tokens ++ (headTokens "while" c ++ [.mark ";"]))
  | attributed _ sub _ _ => sub.tokens
  | annotated attrs sub _ _ => .mark "[[" :: (listed RawAttr.tokens attrs ++ .mark "]]" :: sub.tokens)

def allTokens : List Stmt → List Token
  | [] => []
  | s :: ss => s.tokens ++ allTokens ss

end

def initTokens : Option Stmt → List Token
  | none => [.mark ";"]
  | some s => s.tokens

theorem tokens_forLoop (init : Option Stmt) (c step : Option Expr) (body : Stmt) (l : Loc) :
    (forLoop init c step body l).tokens = .word "for" :: .mark "(" :: (initTokens init ++
      (Expr.optTokens c ++ .mark ";" :: (Expr.optTokens step ++ .mark ")" :: body.tokens))) := by
  cases init <;> rw [tokens, initTokens]
  rfl

theorem bare_forLoop (init : Option Stmt) (c step : Option Expr) (body : Stmt) (l : Loc) :
    (forLoop init c step body l).bare = .forLoop (init.map bare) (c.map Expr.bare)
      (step.map Expr.bare) body.bare .unknown := by
  cases init <;> rw [bare] <;> rfl

end Stmt

structure VarDecl.Written (d : VarDecl) : Prop where
  name : IsName d.name
  type : IsType d.isConst d.typeName
  init : ∀ e ∈ d.init, e.Written

structure RawAttr.Written (a : RawAttr) : Prop where
  spelling : a.spelling = .cxx11
  scope : ∀ s ∈ a.scope, IsName s
  name : IsName a.name
  args : a.args = a.exprs.map fun e => some (.expr e)
  exprs : ∀ e ∈ a.exprs, e.Written

/-- Whether a conditional without `else` ends where the statement does. -/
def Stmt.IsOpen (s : Stmt) : Prop := ∃ c yes l, .ifElse c yes none l ∈ s.tails

def Stmt.IsInit : Stmt → Prop
  | .decl _ | .expr _ _ => True
  | _ => False

inductive Stmt.Written : Stmt → Prop where
  | null {l : Loc} : Written (.null l)
  | compound {body : List Stmt} {l : Loc} (hbody : ∀ s ∈ body, Written s) :
    Written (.compound body l)
  | expr {e : Expr} {l : Loc} (he : e.Written) : Written (.expr e l)
  | decl {d : VarDecl} (hd : d.Written) : Written (.decl d)
  | ret {value : Option Expr} {l : Loc} (hvalue : ∀ e ∈ value, e.Written) : Written (.ret value l)
  | brk {l : Loc} : Written (.brk l)
  | cont {l : Loc} : Written (.cont l)
  | ifThen {c : Expr} {yes : Stmt} {l : Loc} (hc : c.Written) (hyes : Written yes) :
    Written (.ifElse c yes none l)
  | ifElse {c : Expr} {yes no : Stmt} {l : Loc} (hc : c.Written) (hyes : Written yes)
    (hno : Written no) (hclosed : ¬ yes.IsOpen) : Written (.ifElse c yes (some no) l)
  | switch {c : Expr} {body : Stmt} {l : Loc} (hc : c.Written) (hbody : Written body) :
    Written (.switch c body l)
  | caseLabel {value : Expr} {sub : Stmt} {l : Loc} (hvalue : value.Written) (hsub : Written sub) :
    Written (.caseLabel value sub l)
  | defaultLabel {sub : Stmt} {l : Loc} (hsub : Written sub) : Written (.defaultLabel sub l)
  | forLoop {init : Option Stmt} {c step : Option Expr} {body : Stmt} {l : Loc}
    (hinit : ∀ s ∈ init, Written s) (hkind : ∀ s ∈ init, s.IsInit)
    (hc : ∀ e ∈ c, e.Written) (hstep : ∀ e ∈ step, e.Written) (hbody : Written body) :
    Written (.forLoop init c step body l)
  | rangeFor {var typeName : String} {range : Expr} {body : Stmt} {l : Loc} (isConst : Bool)
    (hvar : IsName var) (htype : IsType isConst typeName) (hrange : range.Written)
    (hbody : Written body) : Written (.rangeFor var range body typeName l)
  | whileLoop {c : Expr} {body : Stmt} {l : Loc} (hc : c.Written) (hbody : Written body) :
    Written (.whileLoop c body l)
  | doWhile {body : Stmt} {c : Expr} {l : Loc} (hbody : Written body) (hc : c.Written) :
    Written (.doWhile body c l)
  | annotated {attrs : List RawAttr} {sub : Stmt} {range : Range} {l : Loc}
    (hattrs : ∀ a ∈ attrs, a.Written) (hsub : Written sub) (hplain : sub.annotation? = none) :
    Written (.annotated attrs sub range l)

section Valid

open Token

theorem Expr.valid_optTokens {o : Option Expr} (ho : ∀ e ∈ o, e.Written) :
    ∀ t ∈ optTokens o, t.Valid := by
  cases o with
  | none => exact forall_valid_nil
  | some e => exact (ho e rfl).valid

theorem VarDecl.Written.valid {d : VarDecl} (h : d.Written) : ∀ t ∈ d.tokens, t.Valid := by
  have hinit : ∀ t ∈ d.initTokens, t.Valid := by
    rw [initTokens]
    cases hd : d.init with
    | none => exact forall_valid_nil
    | some e => exact forall_valid_mark (by decide) (h.init e hd).valid
  exact List.forall_mem_cons.mpr ⟨⟨_, h.type⟩, forall_valid_word h.name.isWhole
    (forall_valid_append hinit (forall_valid_mark (by decide) forall_valid_nil))⟩

theorem valid_listed {ι : Type} {tokens : ι → List Token} {items : List ι}
    (h : ∀ i ∈ items, ∀ t ∈ tokens i, t.Valid) : ∀ t ∈ listed tokens items, t.Valid := by
  intro t ht
  obtain ⟨i, hi, ht⟩ := List.mem_flatMap.mp (List.mem_of_mem_tail ht)
  exact forall_valid_mark (by decide) (h i hi) t ht

theorem RawAttr.Written.valid {a : RawAttr} (h : a.Written) : ∀ t ∈ a.tokens, t.Valid := by
  have hname := forall_valid_word h.name.isWhole forall_valid_nil
  have hnames : ∀ t ∈ a.nameTokens, t.Valid := by
    rw [nameTokens]
    cases hs : a.scope with
    | none => exact hname
    | some s => exact forall_valid_word (h.scope s hs).isWhole (forall_valid_mark (by decide) hname)
  have hargs : ∀ t ∈ a.argTokens, t.Valid := by
    rw [argTokens]
    split_ifs with hempty
    · exact forall_valid_nil
    · have hlist := valid_listed fun e he => (h.exprs e he).valid
      rw [listed, ← Expr.commaTokens_eq] at hlist
      exact forall_valid_mark (by decide)
        (forall_valid_append hlist (forall_valid_mark (by decide) forall_valid_nil))
  exact forall_valid_append hnames hargs

namespace Stmt

theorem valid_headTokens {word : String} (hword : Parser.IsWhole word) {c : Expr}
    (hc : c.Written) : ∀ t ∈ headTokens word c, t.Valid :=
  forall_valid_word hword (forall_valid_mark (by decide)
    (forall_valid_append hc.valid (forall_valid_mark (by decide) forall_valid_nil)))

theorem Written.valid {s : Stmt} (h : s.Written) : ∀ t ∈ s.tokens, t.Valid := by
  have hsemi : ∀ t ∈ [mark ";"], t.Valid := forall_valid_mark (by decide) forall_valid_nil
  induction h with
  | null => exact hsemi
  | @compound body l hbody ih =>
    have hall : ∀ t ∈ allTokens body, t.Valid := by
      clear hbody
      induction body with
      | nil => exact forall_valid_nil
      | cons s ss ihss =>
        exact forall_valid_append (ih s (.head _)) (ihss fun s' hs' => ih s' (.tail _ hs'))
    exact forall_valid_mark (by decide)
      (forall_valid_append hall (forall_valid_mark (by decide) forall_valid_nil))
  | expr he => exact forall_valid_append he.valid hsemi
  | decl hd => exact hd.valid
  | ret hvalue =>
    exact forall_valid_word (by decide) (forall_valid_append (Expr.valid_optTokens hvalue) hsemi)
  | brk | cont => exact forall_valid_word (by decide) hsemi
  | ifThen hc _ ih | switch hc _ ih | whileLoop hc _ ih =>
    exact forall_valid_append (valid_headTokens (by decide) hc) ih
  | ifElse hc _ _ _ ihyes ihno =>
    exact forall_valid_append (valid_headTokens (by decide) hc)
      (forall_valid_append ihyes (forall_valid_word (by decide) ihno))
  | caseLabel hvalue _ ih =>
    exact forall_valid_word (by decide)
      (forall_valid_append hvalue.valid (forall_valid_mark (by decide) ih))
  | defaultLabel _ ih => exact forall_valid_word (by decide) (forall_valid_mark (by decide) ih)
  | @forLoop init c step body l hinit _ hc hstep _ ihinit ih =>
    have hrest : ∀ t ∈ Expr.optTokens c ++ mark ";" ::
        (Expr.optTokens step ++ mark ")" :: body.tokens), t.Valid :=
      forall_valid_append (Expr.valid_optTokens hc) (forall_valid_mark (by decide)
        (forall_valid_append (Expr.valid_optTokens hstep) (forall_valid_mark (by decide) ih)))
    have hfirst : ∀ t ∈ initTokens init, t.Valid := by
      cases init with
      | none => exact hsemi
      | some s => exact ihinit s rfl
    rw [tokens_forLoop]
    exact forall_valid_word (by decide)
      (forall_valid_mark (by decide) (forall_valid_append hfirst hrest))
  | rangeFor isConst hvar htype hrange _ ih =>
    have hrest := forall_valid_mark (s := ":") (by decide)
      (forall_valid_append hrange.valid (forall_valid_mark (s := ")") (by decide) ih))
    exact forall_valid_word (by decide) (forall_valid_mark (by decide)
      (List.forall_mem_cons.mpr ⟨⟨isConst, htype⟩, forall_valid_word hvar.isWhole hrest⟩))
  | doWhile _ hc ih =>
    exact forall_valid_word (by decide)
      (forall_valid_append ih (forall_valid_append (valid_headTokens (by decide) hc) hsemi))
  | annotated hattrs _ _ ih =>
    exact forall_valid_mark (by decide) (forall_valid_append
      (valid_listed fun a ha => (hattrs a ha).valid) (forall_valid_mark (by decide) ih))

end Stmt

end Valid

end AttrCheck
