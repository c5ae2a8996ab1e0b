import AttrCheck.Proofs.Containment
import AttrCheck.Proofs.DeclaredType
import AttrCheck.Proofs.SpecifierEnd

/-! Where the nodes of a unit begin. Whatever a node is read as, be it a chain that begins with its
first operand or a statement that begins with its specifiers, it begins no later than all that
stands inside it. -/

namespace AttrCheck

namespace Node

/-- Whether a text can be read as this: an integer has the value of its text, an assignment has a
symbol of its own, the flag of a variable says how its type begins, and attributes are not checked
yet. -/
def AsWritten : Node → Prop
  | expr (.int value text _) => IsLiteral value text
  | expr (.assign op _ _ _) => op ∈ assignSymbols
  | var d => d.SaysConst
  | stmt (.attributed _ _ _ _) => False
  | _ => True

structure AsRead (a : Node) : Prop where
  asWritten : a.AsWritten
  le : ∀ b ∈ a.parts, a.loc ≤ b.loc

structure From (l : Loc) (a : Node) : Prop where
  le : l ≤ a.loc
  asRead : a.Throughout AsRead

variable {l m : Loc} {a : Node}

theorem From.of_le (h : From m a) (hl : l ≤ m) : From l a := ⟨hl.trans h.le, h.asRead⟩

theorem From.self (h : From l a) : From a.loc a := ⟨le_rfl, h.asRead⟩

theorem from_of_parts (hw : a.AsWritten) (hl : l ≤ a.loc) (h : ∀ b ∈ a.parts, From a.loc b) :
    From l a :=
  ⟨hl, .intro ⟨hw, fun b hb => (h b hb).le⟩ fun b hb => (h b hb).asRead⟩

theorem from_expr {e : Expr} (hw : (expr e).AsWritten)
    (h : ∀ e' ∈ e.parts, From e.loc (.expr e')) : From e.loc (.expr e) := by
  refine from_of_parts hw le_rfl ?_
  intro b hb
  obtain ⟨e', he', rfl⟩ := List.mem_map.mp hb
  exact h e' he'

theorem from_stmt {s : Stmt} (hw : (stmt s).AsWritten) (h : ∀ b ∈ s.parts, From s.loc b) :
    From s.loc (.stmt s) := from_of_parts hw le_rfl h

end Node

open Node

def PostfixOp.From (start : Loc) : PostfixOp → Prop
  | call args => ∀ e ∈ args, Node.From start (.expr e)
  | step _ => True

theorem from_apply {start : Loc} {e : Expr} {op : PostfixOp} (he : From start (.expr e))
    (hop : op.From start) : From start (.expr (op.apply start e)) := by
  cases op with
  | call args =>
    exact from_expr (e := .call e args start) trivial (List.forall_mem_cons.mpr ⟨he, hop⟩)
  | step op => exact from_expr (e := .unary op e start) trivial (List.forall_mem_singleton.mpr he)

theorem from_applyAll {start : Loc} {e : Expr} {ops : List PostfixOp} (he : From start (.expr e))
    (hops : ∀ op ∈ ops, op.From start) :
    From start (.expr (ops.foldl (PostfixOp.apply start) e)) := by
  induction ops generalizing e with
  | nil => exact he
  | cons op ops ih =>
    obtain ⟨hop, hops⟩ := List.forall_mem_cons.mp hops
    exact ih (from_apply he hop) hops

theorem from_joinLeft {start : Loc} {first : Expr} {rest : List (BinaryOp × Expr)}
    (hfirst : From start (.expr first)) (hrest : ∀ x ∈ rest, From start (.expr x.2)) :
    From start (.expr (joinLeft start first rest)) := by
  induction rest generalizing first with
  | nil => exact hfirst
  | cons x rest ih =>
    obtain ⟨hx, hrest⟩ := List.forall_mem_cons.mp hrest
    refine ih (from_expr (e := .binary x.1 first x.2 start) trivial ?_) hrest
    exact List.forall_mem_cons.mpr ⟨hfirst, List.forall_mem_singleton.mpr hx⟩

namespace Parser

variable {α β : Type} {l : Loc} {p : Parser α} {q : α → Parser β} {P : α → Prop} {Q : β → Prop}

/-- What the parser reads behind a place is some `P`, and it does not go back in front of it. -/
abbrev Behind (l : Loc) (p : Parser α) (P : α → Prop) : Prop := Carries (fun c => l ≤ c.loc) p P

namespace Carries

theorem skip (hp : Advances p) (hq : ∀ a, Behind l (q a) Q) : Behind l (p >>= q) Q := by
  intro c b c'' hl e
  obtain ⟨a, c', ha, hb⟩ := bind_eq_some_iff.mp e
  exact hq a c' b c'' (hl.trans (hp c a c' ha).loc_le) hb

theorem ofYields (hp : Advances p) (h : Yields p P) : Behind l p P :=
  fun c a c' hl e => ⟨h c a c' e, hl.trans (hp c a c' e).loc_le⟩

theorem place : Behind l here fun m => l ≤ m := by
  intro c m c' hl e
  obtain ⟨rfl, rfl⟩ := here_eq_some_iff.mp e
  exact ⟨hl, hl⟩

theorem opened {node : α → Node} {q : Loc → Parser α}
    (h : ∀ start, Behind start (q start) fun a => From start (node a)) :
    Behind l (here >>= q) fun a => From l (node a) := by
  intro c a c' hl e
  rw [bind_here_apply] at e
  obtain ⟨hfrom, hle⟩ := h c.loc c a c' le_rfl e
  exact ⟨hfrom.of_le hl, hl.trans hle⟩

theorem spaced (h : Behind l p P) : Behind l (Parser.spaced p) P := skip advances_layout fun _ => h

theorem parens (h : Behind l p P) : Behind l (Parser.parens p) P :=
  skip (advances_symbol _) fun _ => (spaced h).bind fun _ ha =>
    skip (advances_symbol _).spaced fun _ => .pure ha

theorem default {p : Parser (List α)} (h : Behind l p fun as => ∀ a ∈ as, P a) :
    Behind l (Parser.orElse p []) fun as => ∀ a ∈ as, P a :=
  h.orElse (.pure (List.forall_mem_nil _))

theorem cons {p' : Parser α} (h : Behind l p P) (h' : Behind l p' P) (n : Nat) :
    Behind l (do let a ← p; let as ← Parser.many p' n; return a :: as) fun as => ∀ a ∈ as, P a :=
  h.bind fun _ ha => (h'.many n).bind fun _ has => .pure (List.forall_mem_cons.mpr ⟨ha, has⟩)

theorem commaList (h : Behind l p P) (n : Nat) :
    Behind l (Parser.commaList p n) fun as => ∀ a ∈ as, P a :=
  cons h (skip (advances_symbol ",").spaced fun _ => spaced h) n

end Carries

theorem yields_number : Yields number fun x => IsLiteral x.1 x.2 :=
  fun _ _ _ e => .number (number_eq_some e).1

theorem yields_boolWord : Yields boolWord fun x => IsLiteral x.1 x.2 := by
  intro c x c' e
  obtain ⟨p, hp, e⟩ := firstOf_eq_some e
  simp only [List.mem_cons, List.not_mem_nil, or_false] at hp
  rcases hp with rfl | rfl
  · obtain ⟨_, _, _, e⟩ := bind_eq_some_iff.mp e
    obtain ⟨rfl, _⟩ := pure_eq_some_iff.mp e
    exact .yes
  · obtain ⟨_, _, _, e⟩ := bind_eq_some_iff.mp e
    obtain ⟨rfl, _⟩ := pure_eq_some_iff.mp e
    exact .no

section Expressions

variable {n : Nat} {inner : Parser Expr}

def ReadsFrom (p : Parser Expr) : Prop := ∀ l, Behind l p fun e => From l (.expr e)

variable (h : ReadsFrom inner)
include h

theorem behind_arguments (l : Loc) :
    Behind l (arguments n inner) fun args => ∀ e ∈ args, From l (.expr e) :=
  .parens (.default (.commaList (h l) n))

theorem readsFrom_primary : ReadsFrom (primary inner) := by
  refine fun l => .opened fun start => .firstOf fun p hp => ?_
  have hleaf {e : Expr} (hw : (Node.expr e).AsWritten) (hloc : e.loc = start)
      (he : e.parts = []) : From start (.expr e) := by
    rw [← hloc]
    exact from_expr hw (he ▸ List.forall_mem_nil _)
  simp only [List.mem_cons, List.not_mem_nil, or_false] at hp
  rcases hp with rfl | rfl | rfl | rfl | rfl
  · exact (Carries.ofYields advances_number yields_number).bind fun _ hx =>
      .pure (hleaf hx rfl rfl)
  · exact .skip advances_stringLiteral fun _ => .pure (hleaf trivial rfl rfl)
  · exact (Carries.ofYields advances_boolWord yields_boolWord).bind fun _ hx =>
      .pure (hleaf hx rfl rfl)
  · exact (Carries.parens (h start)).bind fun e he =>
      .pure (from_expr (e := .paren e start) trivial (List.forall_mem_singleton.mpr he))
  · exact .skip consumes_name.advances fun _ => .pure (hleaf trivial rfl rfl)

theorem behind_postfixOp (l : Loc) : Behind l (postfixOp n inner) (PostfixOp.From l) := by
  refine .firstOf fun p hp => ?_
  simp only [List.mem_cons, List.not_mem_nil, or_false] at hp
  rcases hp with rfl | rfl | rfl
  · exact (behind_arguments h l).bind fun _ hargs => .pure hargs
  · exact .skip (advances_symbol _) fun _ => .pure trivial
  · exact .skip (advances_symbol _) fun _ => .pure trivial

theorem readsFrom_postfixExpr : ReadsFrom (postfixExpr n inner) :=
  fun _ => .opened fun start => (readsFrom_primary h start).bind fun _ he =>
    ((Carries.spaced (behind_postfixOp h start)).many n).bind fun _ hops =>
      .pure (from_applyAll he hops)

omit h in
theorem from_fronts {k : Nat} {c c' : Cursor} {fronts : List (UnaryOp × Loc)} {e : Expr}
    (hfronts : many (do
      let start ← here
      let op ← frontOp
      layout
      return (op, start)) k c = some (fronts, c')) (he : From c'.loc (.expr e)) :
    From c.loc (.expr (fronts.foldr (fun (op, start) e => .unary op e start) e)) := by
  induction k generalizing c fronts with
  | zero =>
    obtain ⟨rfl, rfl⟩ := pure_eq_some_iff.mp hfronts
    exact he
  | succ k ih =>
    rcases many_succ_eq_some hfronts with ⟨front, c₁, rest, h₁, h₂, rfl⟩ | ⟨_, rfl, rfl⟩
    · rw [bind_here_apply] at h₁
      obtain ⟨op, c₂, hop, h₁⟩ := bind_eq_some_iff.mp h₁
      obtain ⟨_, c₃, hlayout, h₁⟩ := bind_eq_some_iff.mp h₁
      obtain ⟨rfl, rfl⟩ := pure_eq_some_iff.mp h₁
      have hle := ((advances_frontOp c op c₂ hop).trans (advances_layout c₂ () c₃ hlayout)).loc_le
      have hrest := (ih h₂).of_le hle
      exact from_expr (e := .unary op _ c.loc) trivial (List.forall_mem_singleton.mpr hrest)
    · exact he

theorem readsFrom_unary : ReadsFrom (unary n inner) := by
  intro l c e c' hl hread
  obtain ⟨fronts, c₁, h₁, hread⟩ := bind_eq_some_iff.mp hread
  obtain ⟨operand, c₂, h₂, hread⟩ := bind_eq_some_iff.mp hread
  obtain ⟨rfl, rfl⟩ := pure_eq_some_iff.mp hread
  obtain ⟨hoperand, hle⟩ := readsFrom_postfixExpr h c₁.loc c₁ operand c₂ le_rfl h₂
  have hfronts := from_fronts h₁ hoperand
  have hfront := advances_here.bind fun start => advances_frontOp.bind fun op =>
    advances_layout.bind fun _ => advances_pure (op, start)
  exact ⟨hfronts.of_le hl, hl.trans ((hfront.many n c fronts c₁ h₁).loc_le.trans hle)⟩

theorem behind_chainFrom (levels : List (List (BinaryOp × List Char))) :
    ∀ {start first}, From start (.expr first) →
      Behind start (chainFrom n inner start first levels) fun e => From start (.expr e) := by
  induction levels with
  | nil => exact fun hfirst => .pure hfirst
  | cons level tighter ih =>
    intro start first hfirst
    have hround : Behind start (do
        let op ← Parser.spaced (binaryOp level)
        layout
        let loc ← here
        let operand ← unary n inner
        let rhs ← chainFrom n inner loc operand tighter
        return (op, rhs)) fun x => From start (.expr x.2) :=
      .skip (advances_binaryOp level).spaced fun op => .skip advances_layout fun _ =>
        .opened fun loc => (readsFrom_unary h loc).bind fun _ hoperand =>
          (ih hoperand).bind fun _ hrhs => .pure hrhs
    exact (ih hfirst).bind fun _ hlhs => (hround.many n).bind fun _ hrest =>
      .pure (from_joinLeft hlhs hrest)

theorem from_joinArms {k : Nat} {start : Loc} {c c' : Cursor}
    {arms : List (Expr × Expr × Loc)} {cond : Expr} (hl : start ≤ c.loc)
    (harms : many (do
      Parser.spaced (symbol "?")
      let yes ← Parser.spaced inner
      Parser.spaced (symbol ":")
      layout
      let loc ← here
      let operand ← unary n inner
      let next ← chainFrom n inner loc operand binaryLevels
      return (yes, next, loc)) k c = some (arms, c')) (hcond : From start (.expr cond)) :
    From start (.expr (joinArms start cond arms)) ∧ start ≤ c'.loc := by
  induction k generalizing start c arms cond with
  | zero =>
    obtain ⟨rfl, rfl⟩ := pure_eq_some_iff.mp harms
    exact ⟨hcond, hl⟩
  | succ k ih =>
    rcases many_succ_eq_some harms with ⟨arm, c₁, rest, h₁, h₂, rfl⟩ | ⟨_, rfl, rfl⟩
    · obtain ⟨_, d₁, hask, h₁⟩ := bind_eq_some_iff.mp h₁
      obtain ⟨yes, d₂, hyes, h₁⟩ := bind_eq_some_iff.mp h₁
      obtain ⟨_, d₃, hcolon, h₁⟩ := bind_eq_some_iff.mp h₁
      obtain ⟨_, d₄, hlayout, h₁⟩ := bind_eq_some_iff.mp h₁
      rw [bind_here_apply] at h₁
      obtain ⟨operand, d₅, hoperand, h₁⟩ := bind_eq_some_iff.mp h₁
      obtain ⟨next, d₆, hnext, h₁⟩ := bind_eq_some_iff.mp h₁
      obtain ⟨rfl, rfl⟩ := pure_eq_some_iff.mp h₁
      have hask' := hl.trans ((advances_symbol _).spaced c () d₁ hask).loc_le
      obtain ⟨hyes, hl₂⟩ := Carries.spaced (h start) d₁ yes d₂ hask' hyes
      have hl₄ := hl₂.trans (((advances_symbol _).spaced d₂ () d₃ hcolon).trans
        (advances_layout d₃ () d₄ hlayout)).loc_le
      obtain ⟨hoperand, hl₅⟩ := readsFrom_unary h d₄.loc d₄ operand d₅ le_rfl hoperand
      obtain ⟨hnext, hl₆⟩ := behind_chainFrom h binaryLevels hoperand d₅ next d₆ hl₅ hnext
      -- What the arm ends with is the condition of the arms behind it, at a place of its own.
      obtain ⟨hrest, hend⟩ := ih hl₆ h₂ hnext
      refine ⟨from_expr (e := .conditional cond yes (joinArms d₄.loc next rest) start) trivial ?_,
        hl₄.trans hend⟩
      exact List.forall_mem_cons.mpr ⟨hcond, List.forall_mem_cons.mpr
        ⟨hyes, List.forall_mem_singleton.mpr (hrest.of_le hl₄)⟩⟩
    · exact ⟨hcond, hl⟩

theorem behind_conditionalFrom {start : Loc} {first : Expr} (hfirst : From start (.expr first)) :
    Behind start (conditionalFrom n inner start first) fun e => From start (.expr e) :=
  (behind_chainFrom h binaryLevels hfirst).bind fun cond hcond => by
    intro c e c' hl hread
    obtain ⟨arms, c₁, h₁, hread⟩ := bind_eq_some_iff.mp hread
    obtain ⟨rfl, rfl⟩ := pure_eq_some_iff.mp hread
    exact from_joinArms h hl h₁ hcond

theorem behind_assignFrom {start : Loc} {target : Expr} (htarget : From start (.expr target)) :
    Behind start (assignFrom inner start target) fun e => From start (.expr e) := by
  have hop : Behind start assignOp (· ∈ assignSymbols) := by
    refine .firstOf fun p hp => ?_
    obtain ⟨s, hs, rfl⟩ := List.mem_map.mp hp
    exact .skip (advances_symbolNotBefore s _) fun _ => .pure hs
  refine (Carries.spaced hop).bind fun op hop => (Carries.spaced (h start)).bind fun value hvalue =>
    .pure (from_expr (e := .assign op target value start) hop ?_)
  exact List.forall_mem_cons.mpr ⟨htarget, List.forall_mem_singleton.mpr hvalue⟩

omit h in
theorem readsFrom_expr (n : Nat) : ReadsFrom (expr n) := by
  induction n with
  | zero => exact fun l c e c' _ he => absurd he nofun
  | succ n ih =>
    exact fun l => .opened fun start => (readsFrom_unary ih start).bind fun operand hoperand =>
      (behind_assignFrom ih hoperand).orElse (behind_conditionalFrom ih hoperand)

end Expressions

section Attributes

variable {n : Nat} {inner : Parser Expr} (h : ReadsFrom inner) (ha : Advances inner)

theorem from_attr {start : Loc} {a : RawAttr} (hl : a.loc = start)
    (h : ∀ arg, some arg ∈ a.args → From start arg.node) : From start (.attr a) := by
  subst hl
  refine from_of_parts trivial le_rfl ?_
  intro b hb
  obtain ⟨arg, harg, hb⟩ := List.mem_filterMap.mp hb
  obtain ⟨arg, rfl, rfl⟩ := Option.map_eq_some_iff.mp hb
  exact h arg harg

theorem from_ident {l : Loc} {i : Ident} (hl : l ≤ i.loc) : From l (.ident i) :=
  from_of_parts trivial hl (List.forall_mem_nil _)

include h

theorem behind_attributeWith {sp : Spelling} {named : Parser (Option String × String)}
    (hn : Advances named) (l : Loc) :
    Behind l (attributeWith n inner sp named) fun a => From l (.attr a) := by
  refine .opened fun start => .skip hn fun name =>
    (Carries.default (Carries.spaced (behind_arguments h start))).bind fun args hargs =>
      .skip advances_here fun stop => .pure (from_attr rfl ?_)
  intro arg harg
  obtain ⟨e, he, harg⟩ := List.mem_map.mp harg
  obtain rfl := Option.some.inj harg
  exact hargs e he

theorem behind_attributeList (sp : Spelling) (l : Loc) :
    Behind l (attributeList n inner sp) fun as => ∀ a ∈ as, From l (.attr a) :=
  .default (.commaList (behind_attributeWith h consumes_scopedName.advances l) n)

theorem behind_declspecList (l : Loc) :
    Behind l (declspecList n inner) fun as => ∀ a ∈ as, From l (.attr a) := by
  have hentry : Behind l (declspecEntry n inner) fun a => From l (.attr a) :=
    behind_attributeWith h consumes_declspecName.advances l
  exact .default (.cons hentry (.spaced hentry) n)

omit h in
theorem from_ofLoopOption {start stop close : Loc} {option : String} {value : Option Expr}
    (hclose : start ≤ close) (hvalue : ∀ e ∈ value, From start (.expr e)) :
    From start (.attr (.ofLoopOption ⟨start, stop⟩ option value close)) := by
  refine from_attr rfl ?_
  intro arg harg
  -- The word of the value stands where the value does, or where a value is missed.
  have hword {e : Expr} (he : e ∈ value) : start ≤ e.loc := (hvalue e he).le
  simp only [RawAttr.ofLoopOption, List.mem_cons, List.not_mem_nil, or_false, Option.some.injEq]
    at harg
  rcases harg with rfl | rfl | harg
  · exact from_ident le_rfl
  · refine from_ident ?_
    cases value with
    | none => exact hclose
    | some e => cases e <;> exact hword rfl
  · obtain ⟨e, he, rfl⟩ := Option.map_eq_some_iff.mp harg.symm
    exact hvalue e he

theorem behind_loopOption (l : Loc) : Behind l (loopOption inner) fun a => From l (.attr a) := by
  refine .skip (advances_run _) fun _ => .opened fun start => ?_
  refine .skip consumes_name.advances fun _ => .skip (advances_run _) fun _ => ?_
  refine .skip (advances_symbol _) fun _ => ?_
  refine (Carries.spaced (h start).maybe).bind fun _ hvalue => ?_
  refine .skip advances_layout fun _ => Carries.place.bind fun _ hclose => ?_
  refine .skip (advances_symbol _) fun _ => .skip advances_here fun _ => .pure ?_
  exact from_ofLoopOption hclose hvalue

omit h in
theorem behind_specifier {l : Loc} {p : Parser (List RawAttr)}
    (hp : Behind l p fun as => ∀ a ∈ as, From l (.attr a)) :
    Behind l (specifier p) fun spec => ∀ a ∈ spec.attrs, From l (.attr a) :=
  .skip advances_here fun _ => hp.bind fun _ has => .skip advances_here fun _ => .pure has

theorem behind_loopSpecifier (l : Loc) :
    Behind l (loopSpecifier n inner) fun spec => ∀ a ∈ spec.attrs, From l (.attr a) := by
  refine .skip advances_here fun _ => .skip consumes_loopDirective.advances fun _ => ?_
  refine (behind_loopOption h l).bind fun first hfirst => ?_
  refine ((behind_loopOption h l).many n).bind fun more hmore => ?_
  refine .skip (advances_run _) fun _ => .skip advances_lineEnd fun _ => .pure ?_
  exact List.forall_mem_cons.mpr ⟨hfirst, hmore⟩

theorem behind_anySpecifier (l : Loc) :
    Behind l (anySpecifier n inner) fun spec => ∀ a ∈ spec.attrs, From l (.attr a) := by
  refine .firstOf fun p hp => ?_
  simp only [List.mem_cons, List.not_mem_nil, or_false] at hp
  rcases hp with rfl | rfl | rfl | rfl
  · refine behind_specifier (.skip (advances_symbol _) fun _ => ?_)
    exact (Carries.spaced (behind_attributeList h _ l)).bind fun _ has =>
      .skip (advances_symbol _).spaced fun _ => .pure has
  · refine behind_specifier (.skip (advances_keyword _) fun _ => ?_)
    exact .spaced (.parens (.parens (behind_attributeList h _ l)))
  · refine behind_specifier (.skip (advances_keyword _) fun _ => ?_)
    exact .spaced (.parens (behind_declspecList h l))
  · exact behind_loopSpecifier h l

theorem behind_specifiers (l : Loc) :
    Behind l (specifiers n inner) fun spec => ∀ a ∈ spec.attrs, From l (.attr a) := by
  refine (behind_anySpecifier h l).bind fun first hfirst =>
    ((Carries.spaced (behind_anySpecifier h l)).many n).bind fun more hmore => .pure ?_
  intro a ha
  rcases List.mem_append.mp ha with ha | ha
  · exact hfirst a ha
  · obtain ⟨spec, hspec, ha⟩ := List.mem_flatMap.mp ha
    exact hmore spec hspec a ha

end Attributes

section Statements

variable {n : Nat} {inner : Parser Stmt} {l : Loc}

def ReadsStmtFrom (p : Parser Stmt) : Prop := ∀ l, Behind l p fun s => From l (.stmt s)

theorem behind_spacedExpr (l : Loc) : Behind l (spacedExpr n) fun e => From l (.expr e) :=
  .spaced (readsFrom_expr n l)

theorem behind_condition (l : Loc) : Behind l (condition n) fun e => From l (.expr e) :=
  .spaced (.parens (readsFrom_expr n l))

theorem behind_spacedMaybe (l : Loc) :
    Behind l (spaced (maybe (expr n))) fun o => ∀ e ∈ o, From l (.expr e) :=
  .spaced (readsFrom_expr n l).maybe

theorem forall_mem_toList_map {node : α → Node} {o : Option α} (h : ∀ a ∈ o, From l (node a)) :
    ∀ b ∈ o.toList.map node, From l b := by
  intro b hb
  obtain ⟨a, ha, rfl⟩ := List.mem_map.mp hb
  exact h a (Option.mem_toList.mp ha)

theorem behind_variableDecl (l : Loc) : Behind l (variableDecl n) fun d => From l (.var d) := by
  refine .opened fun start => (Carries.ofYields (advances_typeName n) (yields_typeName n)).bind
    fun type htype => .skip consumes_name.advances.spaced fun name => .skip advances_layout
      fun _ => ?_
  have hinit : Behind start (initializer n) fun e => From start (.expr e) :=
    .skip (advances_symbolNotBefore _ _) fun _ => (behind_spacedExpr start).bind fun _ he =>
      .skip advances_layout fun _ => .pure he
  exact hinit.maybe.bind fun init hinit => .skip (advances_symbol _) fun _ =>
    .pure (from_of_parts htype le_rfl (forall_mem_toList_map hinit))

theorem readsStmtFrom_declStmt : ReadsStmtFrom (declStmt n) := fun l =>
  (behind_variableDecl l).bind fun _ hd =>
    .pure (from_of_parts trivial hd.le (List.forall_mem_singleton.mpr hd.self))

theorem readsStmtFrom_exprStmt : ReadsStmtFrom (exprStmt n) := fun _ =>
  .opened fun start => (readsFrom_expr n start).bind fun e he =>
    .skip consumes_semicolon.advances fun _ =>
      .pure (from_stmt (s := .expr e start) trivial (List.forall_mem_singleton.mpr he))

theorem readsStmtFrom_nullStmt : ReadsStmtFrom nullStmt := fun _ =>
  .opened fun start => .skip (advances_symbol _) fun _ =>
    .pure (from_stmt (s := .null start) trivial (List.forall_mem_nil _))

theorem readsStmtFrom_wordStmt {word : String} {make : Loc → Stmt}
    (hw : ∀ l, (Node.stmt (make l)).AsWritten) (hloc : ∀ l, (make l).loc = l)
    (hparts : ∀ l, (make l).parts = []) :
    ReadsStmtFrom (wordStmt word make) := by
  refine fun _ => .opened fun start => .skip (advances_keyword _) fun _ =>
    .skip consumes_semicolon.advances fun _ => .pure ?_
  have hfrom := from_stmt (hw start) (hparts start ▸ List.forall_mem_nil _)
  rwa [hloc] at hfrom

theorem readsStmtFrom_returnStmt : ReadsStmtFrom (returnStmt n) := by
  refine fun _ => .opened fun start => .skip (advances_keyword _) fun _ => ?_
  refine (behind_spacedMaybe start).bind fun value hvalue => ?_
  refine .skip consumes_semicolon.advances fun _ => .pure ?_
  exact from_stmt (s := .ret value start) trivial (forall_mem_toList_map hvalue)

theorem behind_loopInit (l : Loc) :
    Behind l (loopInit n) fun o => ∀ s ∈ o, From l (.stmt s) := by
  have hsome {p : Parser Stmt} (h : ReadsStmtFrom p) :
      Behind l (some <$> p) fun o => ∀ s ∈ o, From l (.stmt s) := by
    refine .map fun c s c' hl e => ?_
    obtain ⟨hs, hle⟩ := h l c s c' hl e
    exact ⟨by rintro _ ⟨⟩; exact hs, hle⟩
  refine .firstOf fun p hp => ?_
  simp only [List.mem_cons, List.not_mem_nil, or_false] at hp
  rcases hp with rfl | rfl | rfl
  · exact hsome readsStmtFrom_declStmt
  · exact hsome readsStmtFrom_exprStmt
  · exact (readsStmtFrom_nullStmt l).bind fun _ _ => .pure nofun

variable (h : ReadsStmtFrom inner)
include h

theorem readsStmtFrom_annotatedStmt : ReadsStmtFrom (annotatedStmt n inner) := by
  intro l c s c' hl hread
  obtain ⟨spec, c₁, h₁, hread⟩ := bind_eq_some_iff.mp hread
  obtain ⟨sub, c₂, h₂, hread⟩ := bind_eq_some_iff.mp hread
  obtain ⟨rfl, rfl⟩ := pure_eq_some_iff.mp hread
  -- The statement begins where its specifiers do, not with the statement inside.
  have hstart := (spans_specifiers (advances_expr n) h₁).start
  obtain ⟨hattrs, hle⟩ := behind_specifiers (readsFrom_expr n) c.loc c spec c₁ le_rfl h₁
  obtain ⟨hsub, hle'⟩ := Carries.spaced (h c.loc) c₁ sub c₂ hle h₂
  refine ⟨?_, hl.trans hle'⟩
  refine from_of_parts trivial (hl.trans hstart.ge) ?_
  show ∀ b ∈ spec.attrs.map Node.attr ++ [.stmt sub], From spec.range.start b
  rw [hstart]
  refine List.forall_mem_append.mpr ⟨?_, List.forall_mem_singleton.mpr hsub⟩
  intro b hb
  obtain ⟨a, ha, rfl⟩ := List.mem_map.mp hb
  exact hattrs a ha

theorem readsStmtFrom_caseStmt : ReadsStmtFrom (caseStmt n inner) := by
  refine fun _ => .opened fun start => .skip (advances_keyword _) fun _ => ?_
  refine (behind_spacedExpr start).bind fun value hvalue => ?_
  refine .skip (advances_symbol _).spaced fun _ => ?_
  refine (Carries.spaced (h start)).bind fun sub hsub => .pure ?_
  apply from_stmt (s := .caseLabel value sub start) trivial
  exact List.forall_mem_cons.mpr ⟨hvalue, List.forall_mem_singleton.mpr hsub⟩

theorem readsStmtFrom_defaultStmt : ReadsStmtFrom (defaultStmt inner) := by
  refine fun _ => .opened fun start => .skip (advances_keyword _) fun _ => ?_
  refine .skip (advances_symbol _).spaced fun _ => ?_
  refine (Carries.spaced (h start)).bind fun sub hsub => .pure ?_
  apply from_stmt (s := .defaultLabel sub start) trivial
  exact List.forall_mem_singleton.mpr hsub

theorem readsStmtFrom_compoundStmt : ReadsStmtFrom (compoundStmt n inner) := by
  refine fun _ => .opened fun start => .skip (advances_symbol _) fun _ =>
    .skip advances_layout fun _ => ?_
  have hitem : Behind start (inner <* layout) fun s => From start (.stmt s) :=
    (h start).bind fun _ hs => .skip advances_layout fun _ => .pure hs
  refine (hitem.many n).bind fun body hbody => .skip (advances_symbol _) fun _ =>
    .pure (from_stmt (s := .compound body start) trivial ?_)
  intro b hb
  obtain ⟨s, hs, rfl⟩ := List.mem_map.mp hb
  exact hbody s hs

theorem readsStmtFrom_ifStmt : ReadsStmtFrom (ifStmt n inner) := by
  refine fun _ => .opened fun start => .skip (advances_keyword _) fun _ => ?_
  refine (behind_condition start).bind fun cond hcond => ?_
  refine (Carries.spaced (h start)).bind fun yes hyes => ?_
  have helse := Carries.skip (advances_keyword "else").spaced fun _ => Carries.spaced (h start)
  refine helse.maybe.bind fun no hno => .pure ?_
  apply from_stmt (s := .ifElse cond yes no start) trivial
  exact List.forall_mem_cons.mpr ⟨hcond, List.forall_mem_cons.mpr ⟨hyes, forall_mem_toList_map hno⟩⟩

theorem readsStmtFrom_conditionStmt {word : String} {make : Expr → Stmt → Loc → Stmt}
    (hw : ∀ cond body l, (Node.stmt (make cond body l)).AsWritten)
    (hloc : ∀ cond body l, (make cond body l).loc = l)
    (hparts : ∀ cond body l, (make cond body l).parts = [.expr cond, .stmt body]) :
    ReadsStmtFrom (conditionStmt n inner word make) := by
  refine fun _ => .opened fun start => .skip (advances_keyword _) fun _ =>
    (behind_condition start).bind fun cond hcond => (Carries.spaced (h start)).bind
      fun body hbody => .pure (from_of_parts (hw cond body start) (hloc cond body start).ge ?_)
  show ∀ b ∈ (make cond body start).parts, From (make cond body start).loc b
  rw [hparts, hloc]
  exact List.forall_mem_cons.mpr ⟨hcond, List.forall_mem_singleton.mpr hbody⟩

theorem readsStmtFrom_doStmt : ReadsStmtFrom (doStmt n inner) := by
  refine fun _ => .opened fun start => .skip (advances_keyword _) fun _ => ?_
  refine (Carries.spaced (h start)).bind fun body hbody => ?_
  refine .skip (advances_keyword _).spaced fun _ => ?_
  refine (behind_condition start).bind fun cond hcond => ?_
  refine .skip consumes_semicolon.advances fun _ => .pure ?_
  apply from_stmt (s := .doWhile body cond start) trivial
  exact List.forall_mem_cons.mpr ⟨hbody, List.forall_mem_singleton.mpr hcond⟩

theorem readsStmtFrom_rangeForStmt : ReadsStmtFrom (rangeForStmt n inner) := by
  refine fun _ => .opened fun start => .skip (advances_keyword _) fun _ => ?_
  refine .skip (advances_symbol _).spaced fun _ => .skip (advances_typeName n).spaced fun type => ?_
  refine .skip consumes_name.advances.spaced fun var => .skip (advances_symbol _).spaced fun _ => ?_
  refine (behind_spacedExpr start).bind fun range hrange => ?_
  refine .skip (advances_symbol _).spaced fun _ => ?_
  refine (Carries.spaced (h start)).bind fun body hbody => .pure ?_
  apply from_stmt (s := .rangeFor var range body type.text start) trivial
  exact List.forall_mem_cons.mpr ⟨hrange, List.forall_mem_singleton.mpr hbody⟩

theorem readsStmtFrom_forStmt : ReadsStmtFrom (forStmt n inner) := by
  refine fun _ => .opened fun start => .skip (advances_keyword _) fun _ => ?_
  refine .skip (advances_symbol _).spaced fun _ => ?_
  refine (Carries.spaced (behind_loopInit start)).bind fun init hinit => ?_
  refine (behind_spacedMaybe start).bind fun cond hcond => ?_
  refine .skip consumes_semicolon.advances fun _ => ?_
  refine (behind_spacedMaybe start).bind fun step hstep => ?_
  refine .skip (advances_symbol _).spaced fun _ => ?_
  refine (Carries.spaced (h start)).bind fun body hbody => .pure ?_
  apply from_stmt (s := .forLoop init cond step body start) trivial
  refine List.forall_mem_append.mpr ⟨?_, List.forall_mem_singleton.mpr hbody⟩
  refine List.forall_mem_append.mpr ⟨?_, forall_mem_toList_map hstep⟩
  exact List.forall_mem_append.mpr ⟨forall_mem_toList_map hinit, forall_mem_toList_map hcond⟩

theorem readsStmtFrom_stmtWith : ReadsStmtFrom (stmtWith n inner) := by
  refine fun l => .firstOf fun p hp => ?_
  suffices hfrom : ReadsStmtFrom p from hfrom l
  simp only [List.mem_cons, List.not_mem_nil, or_false] at hp
  -- One case for each form of a statement, in the order in which they are tried.
  rcases hp with rfl | rfl | rfl | rfl | rfl | rfl | rfl | rfl | rfl | rfl | rfl | rfl | rfl | rfl |
    rfl | rfl
  · exact readsStmtFrom_annotatedStmt h
  · exact readsStmtFrom_caseStmt h
  · exact readsStmtFrom_defaultStmt h
  · exact readsStmtFrom_compoundStmt h
  · exact readsStmtFrom_ifStmt h
  · exact readsStmtFrom_conditionStmt h (fun _ _ _ => trivial) (fun _ _ _ => rfl) fun _ _ _ => rfl
  · exact readsStmtFrom_conditionStmt h (fun _ _ _ => trivial) (fun _ _ _ => rfl) fun _ _ _ => rfl
  · exact readsStmtFrom_doStmt h
  · exact readsStmtFrom_rangeForStmt h
  · exact readsStmtFrom_forStmt h
  · exact readsStmtFrom_wordStmt (fun _ => trivial) (fun _ => rfl) fun _ => rfl
  · exact readsStmtFrom_wordStmt (fun _ => trivial) (fun _ => rfl) fun _ => rfl
  · exact readsStmtFrom_returnStmt
  · exact readsStmtFrom_declStmt
  · exact readsStmtFrom_nullStmt
  · exact readsStmtFrom_exprStmt

omit h in
theorem readsStmtFrom_stmt (n : Nat) : ReadsStmtFrom (stmt n) := by
  induction n with
  | zero => exact fun l c s c' _ hs => absurd hs nofun
  | succ n ih => exact readsStmtFrom_stmtWith ih

omit h in
theorem loc_of_function {c c' : Cursor} {f : AttrCheck.Function}
    (e : function n c = some (f, c')) : f.loc = c.loc := by
  rw [function, bind_here_apply] at e
  obtain ⟨_, _, _, e⟩ := bind_eq_some_iff.mp e
  obtain ⟨_, _, _, e⟩ := bind_eq_some_iff.mp e
  obtain ⟨_, _, _, e⟩ := bind_eq_some_iff.mp e
  obtain ⟨_, _, _, e⟩ := bind_eq_some_iff.mp e
  obtain ⟨_, _, _, e⟩ := bind_eq_some_iff.mp e
  obtain ⟨rfl, _⟩ := pure_eq_some_iff.mp e
  rfl

omit h in
theorem behind_function (l : Loc) : Behind l (function n) fun f => From l (.function f) := by
  intro c f c' hl e
  have hloc := loc_of_function e
  obtain ⟨d, hd, hbody⟩ := body_of_function e
  obtain ⟨hfrom, hle⟩ :=
    readsStmtFrom_compoundStmt (readsStmtFrom_stmt n) c.loc d f.body c' hd.loc_le hbody
  rw [← hloc] at hfrom
  exact ⟨from_of_parts trivial (hl.trans hloc.ge) (List.forall_mem_singleton.mpr hfrom),
    hl.trans hle⟩

end Statements

end Parser

end AttrCheck
