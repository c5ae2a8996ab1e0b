import Mathlib.Data.List.Flatten
import AttrCheck.Proofs.SourceOrder

/-! Attributes, statements and whole units leave their marks in the order of the text. -/

namespace AttrCheck

theorem registry_loopHint : ∀ e ∈ registry, e.2.2 = .loopHint → e.1 = .pragma := by decide

theorem AttrKind.eq_pragma_of_find {sp : Spelling} {scope : Option String} {name : String}
    (h : AttrKind.find sp scope name = .loopHint) : sp = .pragma := by
  unfold AttrKind.find at h
  split at h
  next sp' name' kind he =>
    have hmem := List.mem_of_find?_eq_some he
    have hsp := List.find?_some he
    simp only [Bool.and_eq_true, decide_eq_true_eq] at hsp
    rw [← hsp.1]
    exact registry_loopHint _ hmem h
  next => exact absurd h nofun

theorem RawAttr.namesOption_of_spelling {a : RawAttr} (h : a.spelling ≠ .pragma) :
    a.NamesOption := fun hk => absurd (AttrKind.eq_pragma_of_find hk) h

/-- The marks of a specifier that stands in front of all others: the statement it annotates begins
with it. -/
def Specifier.marks (sp : Specifier) : List Mark := .stmt sp.range.start :: sp.attrs.map .attr

namespace Parser

variable {n : Nat} {inner : Parser Expr}

theorem leaves_attributeWith {sp : Spelling} {named : Parser (Option String × String)}
    (hi : Advances inner) (hn : Consumes named) (hsp : sp ≠ .pragma) :
    Leaves (attributeWith n inner sp named) fun a => [.attr a] := by
  intro c a c' e
  rw [attributeWith, bind_here_apply] at e
  obtain ⟨⟨scope, name⟩, c₁, h₁, e⟩ := bind_eq_some_iff.mp e
  obtain ⟨args, c₂, h₂, e⟩ := bind_eq_some_iff.mp e
  rw [bind_here_apply] at e
  obtain ⟨rfl, rfl⟩ := pure_eq_some_iff.mp e
  have hname : c.loc < c₁.loc := (hn c _ c₁ h₁).loc_lt
  have hargs : c₁.loc ≤ c₂.loc := ((advances_arguments hi).spaced.default [] c₁ args c₂ h₂).loc_le
  exact .singleton le_rfl (hname.trans_le hargs) (RawAttr.namesOption_of_spelling hsp)

theorem consumes_scopedName : Consumes scopedName :=
  consumes_name.bind fun _ => .orElse ((advances_symbol _).spaced.bind fun _ =>
    consumes_name.advances.spaced.bind fun _ => advances_pure _) (advances_pure _)

section Lists

variable {γ : Type} {R : Loc → List γ → Loc → Prop} (hR : Joins R) {item : RawAttr → γ}
include hR

theorem lays_attributeList {sp : Spelling}
    (h : Lays R (attributeWith n inner sp scopedName) fun a => [item a]) :
    Lays R (attributeList n inner sp) (List.map item) :=
  .default hR (.cons hR h (.seqRight hR (advances_symbol ",").spaced (h.spaced hR)) n)

theorem lays_declspecList (h : Lays R (declspecEntry n inner) fun a => [item a]) :
    Lays R (declspecList n inner) (List.map item) :=
  .default hR (.cons hR h (h.spaced hR) n)

end Lists

theorem consumes_declspecName : Consumes (do return ((none : Option String), ← name)) :=
  consumes_name.bind fun _ => advances_pure _

theorem leaves_attributeList {sp : Spelling} (hi : Advances inner) (hsp : sp ≠ .pragma) :
    Leaves (attributeList n inner sp) fun as => as.map .attr :=
  lays_attributeList joins_spread (leaves_attributeWith hi consumes_scopedName hsp)

theorem leaves_declspecList (hi : Advances inner) :
    Leaves (declspecList n inner) fun as => as.map .attr :=
  lays_declspecList joins_spread (leaves_attributeWith hi consumes_declspecName (by decide))

theorem leaves_specifier {α : Type} {opening : Parser α} {q : α → Parser (List RawAttr)}
    (ho : Consumes opening) (hq : ∀ a, Leaves (q a) fun as => as.map .attr) :
    Leaves (specifier (opening >>= q)) Specifier.marks := by
  intro c sp c' e
  rw [specifier, bind_here_apply] at e
  obtain ⟨as, c₁, h₁, e⟩ := bind_eq_some_iff.mp e
  rw [bind_here_apply] at e
  obtain ⟨rfl, rfl⟩ := pure_eq_some_iff.mp e
  obtain ⟨a, c₀, h₀, h₁⟩ := bind_eq_some_iff.mp h₁
  exact (Spread.start (ho c a c₀ h₀).loc_lt).append (hq a c₀ as c₁ h₁)

theorem leaves_bracketSpecifier (hi : Advances inner) :
    Leaves (bracketSpecifier n inner) Specifier.marks := by
  refine leaves_specifier (consumes_symbol (by decide)) fun _ => ?_
  have hlist := (leaves_attributeList (n := n) hi (by decide : Spelling.cxx11 ≠ .pragma)).spaced
  exact hlist.seqLeft (advances_symbol "]]").spaced

theorem leaves_gnuSpecifier (hi : Advances inner) :
    Leaves (gnuSpecifier n inner) Specifier.marks :=
  leaves_specifier (consumes_keyword (by decide)) fun _ =>
    (leaves_attributeList hi (by decide : Spelling.gnu ≠ .pragma)).parens.parens.spaced

theorem leaves_declspecSpecifier (hi : Advances inner) :
    Leaves (declspecSpecifier n inner) Specifier.marks :=
  leaves_specifier (consumes_keyword (by decide)) fun _ =>
    (leaves_declspecList hi).parens.spaced

theorem leaves_loopOption (hi : Advances inner) :
    Leaves (loopOption inner) fun a => [.attr a] := by
  intro c a c' e
  obtain ⟨_, c₁, h₁, e⟩ := bind_eq_some_iff.mp e
  rw [bind_here_apply] at e
  obtain ⟨option, c₂, h₂, e⟩ := bind_eq_some_iff.mp e
  obtain ⟨_, c₃, h₃, e⟩ := bind_eq_some_iff.mp e
  obtain ⟨_, c₄, h₄, e⟩ := bind_eq_some_iff.mp e
  obtain ⟨value, c₅, h₅, e⟩ := bind_eq_some_iff.mp e
  obtain ⟨_, c₆, h₆, e⟩ := bind_eq_some_iff.mp e
  rw [bind_here_apply] at e
  obtain ⟨_, c₇, h₇, e⟩ := bind_eq_some_iff.mp e
  rw [bind_here_apply] at e
  obtain ⟨rfl, rfl⟩ := pure_eq_some_iff.mp e
  -- The attribute begins with its option, whose name is never empty.
  have hblank : c.loc ≤ c₁.loc := (advances_run _ c _ c₁ h₁).loc_le
  have hname : c₁.loc < c₂.loc := (consumes_name c₁ option c₂ h₂).loc_lt
  have hvalue : c₂.Reaches c₅ := ((advances_run _ c₂ _ c₃ h₃).trans
    (advances_symbol _ c₃ () c₄ h₄)).trans (hi.maybe.spaced c₄ value c₅ h₅)
  have hclose : c₅.Reaches c₇ :=
    (advances_layout c₅ () c₆ h₆).trans (advances_symbol _ c₆ () c₇ h₇)
  refine .singleton hblank (hname.trans_le (hvalue.trans hclose).loc_le) fun _ => ?_
  exact ⟨c₁.loc, option, rfl⟩

theorem consumes_loopDirective : Consumes loopDirective :=
  (consumes_symbol (by decide)).bind fun _ => (advances_run _).bind fun _ =>
    (advances_symbol _).bind fun _ => (advances_run₁ _).bind fun _ =>
      (advances_symbol _).bind fun _ => (advances_run₁ _).bind fun _ => advances_keyword _

theorem advances_lineEnd : Advances lineEnd :=
  ((advances_symbol _).seqRight (advances_run _)).maybe.bind fun _ =>
    (advances_symbol _).orElse (advances_notBefore _)

theorem leaves_loopSpecifier (hi : Advances inner) :
    Leaves (loopSpecifier n inner) Specifier.marks := by
  intro c sp c' e
  rw [loopSpecifier, bind_here_apply] at e
  obtain ⟨_, c₁, h₁, e⟩ := bind_eq_some_iff.mp e
  obtain ⟨first, c₂, h₂, e⟩ := bind_eq_some_iff.mp e
  obtain ⟨more, c₃, h₃, e⟩ := bind_eq_some_iff.mp e
  obtain ⟨_, c₄, h₄, e⟩ := bind_eq_some_iff.mp e
  obtain ⟨_, c₅, h₅, e⟩ := bind_eq_some_iff.mp e
  obtain ⟨rfl, rfl⟩ := pure_eq_some_iff.mp e
  have hoption := leaves_loopOption hi
  have hmore : Spread c₂.loc (more.map .attr) c₃.loc := by
    rw [List.map_eq_flatMap]
    exact hoption.many n c₂ more c₃ h₃
  have hend : c₃.loc ≤ c₅.loc :=
    ((advances_run _ c₃ _ c₄ h₄).trans (advances_lineEnd c₄ () c₅ h₅)).loc_le
  have hopen := Spread.start (consumes_loopDirective c () c₁ h₁).loc_lt
  exact hopen.append ((hoption c₁ first c₂ h₂).append (hmore.trans_le hend))

theorem leaves_anySpecifier (hi : Advances inner) :
    Leaves (anySpecifier n inner) Specifier.marks := by
  refine .firstOf fun p hp => ?_
  simp only [List.mem_cons, List.not_mem_nil, or_false] at hp
  obtain rfl | rfl | rfl | rfl := hp
  · exact leaves_bracketSpecifier hi
  · exact leaves_gnuSpecifier hi
  · exact leaves_declspecSpecifier hi
  · exact leaves_loopSpecifier hi

theorem leaves_specifiers (hi : Advances inner) :
    Leaves (specifiers n inner) Specifier.marks := by
  intro c sp c' e
  obtain ⟨first, c₁, h₁, e⟩ := bind_eq_some_iff.mp e
  obtain ⟨more, c₂, h₂, e⟩ := bind_eq_some_iff.mp e
  obtain ⟨rfl, rfl⟩ := pure_eq_some_iff.mp e
  have hspec := leaves_anySpecifier (n := n) hi
  have hmore := hspec.spaced.many n c₁ more c₂ h₂
  -- Only the first specifier begins the statement; the others give their attributes to it.
  have hattrs : (more.flatMap Specifier.attrs).map Mark.attr |>.Sublist
      (more.flatMap Specifier.marks) := by
    rw [List.map_flatMap]
    exact .flatMap_right more fun sp _ => List.sublist_cons_self _ _
  have h := (hspec c first c₁ h₁).append (hmore.sublist hattrs)
  simpa [Specifier.marks] using h

/-- A statement that begins at `start`, when the marks inside it are read from here on. -/
def Continues (p : Parser Stmt) (start : Loc) : Prop :=
  ∀ c s c', p c = some (s, c') →
    s.ownMarks = [.stmt start] ∧ Spread c.loc (s.children.flatMap Stmt.marks) c'.loc

theorem leaves_opened {α : Type} {word : Parser α} {q : Loc → α → Parser Stmt}
    (hw : Consumes word) (hq : ∀ start a, Continues (q start a) start) :
    Leaves (do let start ← here; let a ← word; q start a) Stmt.marks := by
  intro c s c' e
  rw [bind_here_apply] at e
  obtain ⟨a, c₁, h₁, e⟩ := bind_eq_some_iff.mp e
  obtain ⟨hown, hinside⟩ := hq c.loc a c₁ s c' e
  rw [Stmt.marks_eq, hown]
  exact (Spread.start (hw c a c₁ h₁).loc_lt).append hinside

theorem Continues.bind {α : Type} {p : Parser α} {q : α → Parser Stmt} {start : Loc}
    (hp : Advances p) (hq : ∀ a, Continues (q a) start) : Continues (p >>= q) start := by
  intro c s c' e
  obtain ⟨a, c₁, h₁, e⟩ := bind_eq_some_iff.mp e
  obtain ⟨hown, hinside⟩ := hq a c₁ s c' e
  exact ⟨hown, .of_le (hp c a c₁ h₁).loc_le hinside⟩

theorem Leaves.continues {p : Parser Stmt} {make : Stmt → Stmt} {start : Loc}
    (hp : Leaves p Stmt.marks) (hown : ∀ sub, (make sub).ownMarks = [.stmt start])
    (hsub : ∀ sub, (make sub).children = [sub]) :
    Continues (do return make (← p)) start := by
  intro c s c' e
  obtain ⟨sub, c₁, h₁, e⟩ := bind_eq_some_iff.mp e
  obtain ⟨rfl, rfl⟩ := pure_eq_some_iff.mp e
  refine ⟨hown sub, ?_⟩
  rw [hsub, List.flatMap_singleton]
  exact hp c sub c₁ h₁

theorem leaves_leaf {p : Parser Stmt} (hp : Consumes p)
    (hm : ∀ c s c', p c = some (s, c') → s.marks = [.stmt c.loc]) : Leaves p Stmt.marks := by
  intro c s c' e
  rw [hm c s c' e]
  exact .start (hp c s c' e).loc_lt

variable {sub : Parser Stmt}

theorem advances_condition : Advances (condition n) := (advances_expr n).parens.spaced

theorem advances_spacedExpr : Advances (spacedExpr n) := (advances_expr n).spaced

theorem consumes_semicolon : Consumes (spaced (symbol ";")) :=
  Consumes.spaced (consumes_symbol (by decide))

theorem leaves_annotatedStmt (h : Leaves sub Stmt.marks) :
    Leaves (annotatedStmt n sub) Stmt.marks := by
  intro c s c' e
  obtain ⟨spec, c₁, h₁, e⟩ := bind_eq_some_iff.mp e
  obtain ⟨s', c₂, h₂, e⟩ := bind_eq_some_iff.mp e
  obtain ⟨rfl, rfl⟩ := pure_eq_some_iff.mp e
  rw [Stmt.marks_eq, Stmt.children, List.flatMap_singleton]
  exact (leaves_specifiers (advances_expr n) c spec c₁ h₁).append (h.spaced c₁ s' c₂ h₂)

theorem leaves_caseStmt (h : Leaves sub Stmt.marks) : Leaves (caseStmt n sub) Stmt.marks :=
  leaves_opened (consumes_keyword (by decide)) fun _ _ => .bind advances_spacedExpr fun _ =>
    .bind (advances_symbol _).spaced fun _ => h.spaced.continues (fun _ => rfl) fun _ => rfl

theorem leaves_defaultStmt (h : Leaves sub Stmt.marks) : Leaves (defaultStmt sub) Stmt.marks :=
  leaves_opened (consumes_keyword (by decide)) fun _ _ =>
    .bind (advances_symbol _).spaced fun _ => h.spaced.continues (fun _ => rfl) fun _ => rfl

theorem leaves_conditionStmt {word : String} {make : Expr → Stmt → Loc → Stmt}
    (h : Leaves sub Stmt.marks) (hw : word.toList ≠ [])
    (hown : ∀ c s l, (make c s l).ownMarks = [.stmt l])
    (hsub : ∀ c s l, (make c s l).children = [s]) :
    Leaves (conditionStmt n sub word make) Stmt.marks :=
  leaves_opened (consumes_keyword hw) fun start _ => .bind advances_condition fun cond =>
    h.spaced.continues (fun s => hown cond s start) fun s => hsub cond s start

theorem leaves_rangeForStmt (h : Leaves sub Stmt.marks) : Leaves (rangeForStmt n sub) Stmt.marks :=
  leaves_opened (consumes_keyword (by decide)) fun _ _ => .bind (advances_symbol _).spaced fun _ =>
    .bind (advances_typeName n).spaced fun _ => .bind consumes_name.advances.spaced fun _ =>
      .bind (advances_symbol _).spaced fun _ => .bind advances_spacedExpr fun _ =>
        .bind (advances_symbol _).spaced fun _ => h.spaced.continues (fun _ => rfl) fun _ => rfl

theorem leaves_compoundStmt (h : Leaves sub Stmt.marks) :
    Leaves (compoundStmt n sub) Stmt.marks := by
  refine leaves_opened (consumes_symbol (by decide)) fun start _ =>
    .bind advances_layout fun _ => ?_
  intro c s c' e
  obtain ⟨body, c₁, h₁, e⟩ := bind_eq_some_iff.mp e
  obtain ⟨_, c₂, h₂, e⟩ := bind_eq_some_iff.mp e
  obtain ⟨rfl, rfl⟩ := pure_eq_some_iff.mp e
  have hbody := (h.seqLeft advances_layout).many n c body c₁ h₁
  exact ⟨rfl, hbody.trans_le (advances_symbol _ c₁ () c₂ h₂).loc_le⟩

theorem leaves_ifStmt (h : Leaves sub Stmt.marks) : Leaves (ifStmt n sub) Stmt.marks := by
  refine leaves_opened (consumes_keyword (by decide)) fun start _ =>
    .bind advances_condition fun cond => ?_
  intro c s c' e
  obtain ⟨yes, c₁, h₁, e⟩ := bind_eq_some_iff.mp e
  obtain ⟨no, c₂, h₂, e⟩ := bind_eq_some_iff.mp e
  obtain ⟨rfl, rfl⟩ := pure_eq_some_iff.mp e
  have helse := (h.spaced.seqRight (advances_keyword "else").spaced).maybe c₁ no c₂ h₂
  exact ⟨rfl, (h.spaced c yes c₁ h₁).append helse⟩

theorem leaves_doStmt (h : Leaves sub Stmt.marks) : Leaves (doStmt n sub) Stmt.marks := by
  refine leaves_opened (consumes_keyword (by decide)) fun start _ => ?_
  intro c s c' e
  obtain ⟨body, c₁, h₁, e⟩ := bind_eq_some_iff.mp e
  obtain ⟨_, c₂, h₂, e⟩ := bind_eq_some_iff.mp e
  obtain ⟨cond, c₃, h₃, e⟩ := bind_eq_some_iff.mp e
  obtain ⟨_, c₄, h₄, e⟩ := bind_eq_some_iff.mp e
  obtain ⟨rfl, rfl⟩ := pure_eq_some_iff.mp e
  have hend : c₁.Reaches c₄ := (((advances_keyword _).spaced c₁ () c₂ h₂).trans
    (advances_condition c₂ cond c₃ h₃)).trans (consumes_semicolon c₃ () c₄ h₄).reaches
  refine ⟨rfl, ?_⟩
  rw [Stmt.children, List.flatMap_singleton]
  exact (h.spaced c body c₁ h₁).trans_le hend.loc_le

theorem consumes_variableDecl : Consumes (variableDecl n) := by
  refine advances_here.bind_consumes fun _ => (advances_typeName n).bind_consumes fun _ =>
    consumes_name.advances.spaced.bind_consumes fun _ => advances_layout.bind_consumes fun _ =>
      Advances.bind_consumes (.maybe ?_) fun _ =>
        (consumes_symbol (by decide)).bind fun _ => advances_pure _
  exact (advances_symbolNotBefore _ _).bind fun _ => advances_spacedExpr.bind fun _ =>
    advances_layout.bind fun _ => advances_pure _

theorem loc_of_variableDecl {c c' : Cursor} {d : VarDecl} (h : variableDecl n c = some (d, c')) :
    d.loc = c.loc := by
  rw [variableDecl, bind_here_apply] at h
  obtain ⟨_, _, _, h⟩ := bind_eq_some_iff.mp h
  obtain ⟨_, _, _, h⟩ := bind_eq_some_iff.mp h
  obtain ⟨_, _, _, h⟩ := bind_eq_some_iff.mp h
  obtain ⟨_, _, _, h⟩ := bind_eq_some_iff.mp h
  obtain ⟨_, _, _, h⟩ := bind_eq_some_iff.mp h
  obtain ⟨rfl, _⟩ := pure_eq_some_iff.mp h
  rfl

theorem leaves_declStmt : Leaves (declStmt n) Stmt.marks := by
  refine leaves_leaf (consumes_variableDecl.bind fun _ => advances_pure _) fun c s c' e => ?_
  obtain ⟨d, _, h, e⟩ := bind_eq_some_iff.mp e
  obtain ⟨rfl, _⟩ := pure_eq_some_iff.mp e
  rw [← loc_of_variableDecl h]
  rfl

theorem leaves_exprStmt : Leaves (exprStmt n) Stmt.marks := by
  refine leaves_leaf (advances_here.bind_consumes fun _ => (advances_expr n).bind_consumes fun _ =>
    consumes_semicolon.bind fun _ => advances_pure _) fun c s c' e => ?_
  rw [exprStmt, bind_here_apply] at e
  obtain ⟨_, _, _, e⟩ := bind_eq_some_iff.mp e
  obtain ⟨_, _, _, e⟩ := bind_eq_some_iff.mp e
  obtain ⟨rfl, _⟩ := pure_eq_some_iff.mp e
  rfl

theorem leaves_nullStmt : Leaves nullStmt Stmt.marks := by
  refine leaves_leaf (advances_here.bind_consumes fun _ =>
    (consumes_symbol (by decide)).bind fun _ => advances_pure _) fun c s c' e => ?_
  rw [nullStmt, bind_here_apply] at e
  obtain ⟨_, _, _, e⟩ := bind_eq_some_iff.mp e
  obtain ⟨rfl, _⟩ := pure_eq_some_iff.mp e
  rfl

theorem leaves_wordStmt {word : String} {make : Loc → Stmt} (hm : ∀ l, (make l).marks = [.stmt l]) :
    Leaves (wordStmt word make) Stmt.marks := by
  refine leaves_leaf (advances_here.bind_consumes fun _ =>
    (advances_keyword _).bind_consumes fun _ =>
      consumes_semicolon.bind fun _ => advances_pure _) fun c s c' e => ?_
  rw [wordStmt, bind_here_apply] at e
  obtain ⟨_, _, _, e⟩ := bind_eq_some_iff.mp e
  obtain ⟨_, _, _, e⟩ := bind_eq_some_iff.mp e
  obtain ⟨rfl, _⟩ := pure_eq_some_iff.mp e
  exact hm c.loc

theorem leaves_returnStmt : Leaves (returnStmt n) Stmt.marks := by
  refine leaves_leaf (advances_here.bind_consumes fun _ =>
    (advances_keyword _).bind_consumes fun _ => (advances_expr n).maybe.spaced.bind_consumes fun _ =>
      consumes_semicolon.bind fun _ => advances_pure _) fun c s c' e => ?_
  rw [returnStmt, bind_here_apply] at e
  obtain ⟨_, _, _, e⟩ := bind_eq_some_iff.mp e
  obtain ⟨_, _, _, e⟩ := bind_eq_some_iff.mp e
  obtain ⟨_, _, _, e⟩ := bind_eq_some_iff.mp e
  obtain ⟨rfl, _⟩ := pure_eq_some_iff.mp e
  rfl

theorem leaves_loopInit : Leaves (loopInit n) fun o => o.toList.flatMap Stmt.marks := by
  have hsome {p : Parser Stmt} (h : Leaves p Stmt.marks) :
      Leaves (some <$> p) fun o => o.toList.flatMap Stmt.marks := by
    intro c o c' e
    obtain ⟨s, hs, rfl⟩ := map_eq_some_iff.mp e
    simpa using h c s c' hs
  have hnone : Leaves (nullStmt *> pure none) fun o => o.toList.flatMap Stmt.marks := by
    intro c o c' e
    obtain ⟨s, c₁, h₁, e⟩ := bind_eq_some_iff.mp e
    obtain ⟨rfl, rfl⟩ := pure_eq_some_iff.mp e
    exact .nil (leaves_nullStmt c s c₁ h₁).le
  refine .firstOf fun p hp => ?_
  simp only [List.mem_cons, List.not_mem_nil, or_false] at hp
  obtain rfl | rfl | rfl := hp
  · exact hsome leaves_declStmt
  · exact hsome leaves_exprStmt
  · exact hnone

theorem leaves_forStmt (h : Leaves sub Stmt.marks) : Leaves (forStmt n sub) Stmt.marks := by
  refine leaves_opened (consumes_keyword (by decide)) fun start _ =>
    .bind (advances_symbol _).spaced fun _ => ?_
  intro c s c' e
  obtain ⟨init, c₁, h₁, e⟩ := bind_eq_some_iff.mp e
  obtain ⟨cond, c₂, h₂, e⟩ := bind_eq_some_iff.mp e
  obtain ⟨_, c₃, h₃, e⟩ := bind_eq_some_iff.mp e
  obtain ⟨step, c₄, h₄, e⟩ := bind_eq_some_iff.mp e
  obtain ⟨_, c₅, h₅, e⟩ := bind_eq_some_iff.mp e
  obtain ⟨body, c₆, h₆, e⟩ := bind_eq_some_iff.mp e
  obtain ⟨rfl, rfl⟩ := pure_eq_some_iff.mp e
  have hexpr : Advances (spaced (maybe (expr n))) := (advances_expr n).maybe.spaced
  have hhead : c₁.Reaches c₅ := ((hexpr c₁ cond c₂ h₂).trans
    (consumes_semicolon c₂ () c₃ h₃).reaches).trans
      ((hexpr c₃ step c₄ h₄).trans ((advances_symbol _).spaced c₄ () c₅ h₅))
  refine ⟨rfl, ?_⟩
  rw [Stmt.children, List.flatMap_append, List.flatMap_singleton]
  exact ((leaves_loopInit.spaced c init c₁ h₁).trans_le hhead.loc_le).append
    (h.spaced c₅ body c₆ h₆)

theorem leaves_stmtWith (h : Leaves sub Stmt.marks) : Leaves (stmtWith n sub) Stmt.marks := by
  refine .firstOf fun p hp => ?_
  simp only [List.mem_cons, List.not_mem_nil, or_false] at hp
  -- One case for each form of a statement, in the order in which they are tried.
  obtain rfl | rfl | rfl | rfl | rfl | rfl | rfl | rfl | rfl | rfl | rfl | rfl | rfl | rfl | rfl |
    rfl := hp
  · exact leaves_annotatedStmt h
  · exact leaves_caseStmt h
  · exact leaves_defaultStmt h
  · exact leaves_compoundStmt h
  · exact leaves_ifStmt h
  · exact leaves_conditionStmt h (by decide) (fun _ _ _ => rfl) fun _ _ _ => rfl
  · exact leaves_conditionStmt h (by decide) (fun _ _ _ => rfl) fun _ _ _ => rfl
  · exact leaves_doStmt h
  · exact leaves_rangeForStmt h
  · exact leaves_forStmt h
  · exact leaves_wordStmt fun _ => rfl
  · exact leaves_wordStmt fun _ => rfl
  · exact leaves_returnStmt
  · exact leaves_declStmt
  · exact leaves_nullStmt
  · exact leaves_exprStmt

theorem leaves_stmt (n : Nat) : Leaves (stmt n) Stmt.marks := by
  induction n with
  | zero => exact fun c s c' e => absurd e nofun
  | succ n ih => exact leaves_stmtWith ih

theorem body_of_function {c c' : Cursor} {f : AttrCheck.Function}
    (e : function n c = some (f, c')) :
    ∃ d, c.Reaches d ∧ compoundStmt n (stmt n) d = some (f.body, c') := by
  rw [function, bind_here_apply] at e
  obtain ⟨template, c₁, h₁, e⟩ := bind_eq_some_iff.mp e
  obtain ⟨type, c₂, h₂, e⟩ := bind_eq_some_iff.mp e
  obtain ⟨name, c₃, h₃, e⟩ := bind_eq_some_iff.mp e
  obtain ⟨params, c₄, h₄, e⟩ := bind_eq_some_iff.mp e
  obtain ⟨body, c₅, h₅, e⟩ := bind_eq_some_iff.mp e
  obtain ⟨rfl, rfl⟩ := pure_eq_some_iff.mp e
  obtain ⟨_, c₆, h₆, h₅⟩ := bind_eq_some_iff.mp h₅
  have htemplate : Advances (Parser.orElse (templateHeader n) []) := by
    refine Advances.default (Advances.bind (advances_keyword _) fun _ => ?_) []
    refine (advances_symbol _).spaced.bind fun _ =>
      Advances.bind (.spaced (.commaList ?_ n)) fun _ =>
        (advances_symbol _).spaced.bind fun _ => advances_layout.bind fun _ => advances_pure _
    exact (advances_oneWordOf _).bind fun _ => consumes_name.advances.spaced
  have hparam : Advances (param n) :=
    (advances_typeName n).bind fun _ => consumes_name.advances.spaced.maybe
  have hhead : c.Reaches c₄ := ((htemplate c template c₁ h₁).trans
    (advances_typeName n c₁ type c₂ h₂)).trans ((consumes_name.advances.spaced c₂ name c₃ h₃).trans
      (((hparam.commaList n).default []).parens.spaced c₃ params c₄ h₄))
  exact ⟨c₆, hhead.trans (advances_layout c₄ () c₆ h₆), h₅⟩

theorem leaves_function : Leaves (function n) fun f => f.body.marks := by
  intro c f c' e
  obtain ⟨d, hd, hbody⟩ := body_of_function e
  exact .of_le hd.loc_le (leaves_compoundStmt (leaves_stmt n) d f.body c' hbody)

end Parser

def TopLevel.marks : TopLevel → List Mark
  | function f => f.body.marks
  | global _ => []

def SourceUnit.marks (u : SourceUnit) : List Mark := u.functions.flatMap fun f => f.body.marks

theorem SourceUnit.marks_ofItems (file : String) (items : List TopLevel) :
    (ofItems file items).marks = items.flatMap TopLevel.marks := by
  show (items.filterMap TopLevel.function?).flatMap _ = _
  induction items with
  | nil => rfl
  | cons item items ih =>
    cases item <;> simp [List.filterMap_cons, TopLevel.function?, TopLevel.marks, ih]

theorem Parser.leaves_topLevel {n : Nat} : Leaves (topLevel n) TopLevel.marks := by
  intro c t c' e
  obtain e | e := orElse_eq_some e
  · obtain ⟨f, h, rfl⟩ := map_eq_some_iff.mp e
    exact leaves_function c f c' h
  · obtain ⟨d, h, rfl⟩ := map_eq_some_iff.mp e
    exact .nil (consumes_variableDecl c d c' h).loc_lt.le

theorem exists_items_of_parse {file text : String} {u : SourceUnit} (h : parse file text = .ok u) :
    ∃ items c, Parser.items (text.toList.length + 1) (Cursor.ofText file text) = some (items, c) ∧
      c.rest = [] ∧ u = .ofItems file items := by
  unfold parse at h
  extract_lets start at h
  split at h
  next => exact absurd h nofun
  next items c hi =>
    split_ifs at h with hc
    exact ⟨items, c, hi, List.isEmpty_iff.mp hc, (Except.ok.inj h).symm⟩

theorem parse_of_items {file text : String} {items : List TopLevel} {c : Cursor}
    (h : Parser.items (text.toList.length + 1) (Cursor.ofText file text) = some (items, c))
    (hc : c.rest = []) : parse file text = .ok (.ofItems file items) := by
  unfold parse
  extract_lets start
  have hitems : Parser.items (start.rest.length + 1) start = some (items, c) := h
  rw [hitems]
  exact if_pos (List.isEmpty_iff.mpr hc)

theorem spread_of_parse {file text : String} {u : SourceUnit} (h : parse file text = .ok u) :
    ∃ stop, Spread (Loc.start file) u.marks stop := by
  obtain ⟨items, c, he, _, rfl⟩ := exists_items_of_parse h
  obtain ⟨_, c₁, h₁, he⟩ := Parser.bind_eq_some_iff.mp he
  have hitems := (Parser.leaves_topLevel.seqLeft Parser.advances_layout).many _ c₁ items c he
  rw [SourceUnit.marks_ofItems]
  exact ⟨c.loc, .of_le (Parser.advances_layout _ () c₁ h₁).loc_le hitems⟩

end AttrCheck
