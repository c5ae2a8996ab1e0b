import AttrCheck.Proofs.Nesting
import AttrCheck.Proofs.Traversal
import AttrCheck.Proofs.UnitReading

/-! What is read of every variable, wherever it is declared. The flag that makes a variable constant
says how its type begins, and nothing else of the type counts for it. -/

namespace AttrCheck

namespace Parser

variable {α β : Type} {p : Parser α} {q : α → Parser β} {P : α → Prop} {Q : β → Prop}

/-- From cursors with some property on, the parser reads some `P` and leaves such a cursor. -/
def Carries (I : Cursor → Prop) (p : Parser α) (P : α → Prop) : Prop :=
  ∀ c a c', I c → p c = some (a, c') → P a ∧ I c'

namespace Carries

variable {I : Cursor → Prop}

theorem pure {a : α} (h : P a) : Carries I (pure a) P := by
  intro c b c' hc e
  obtain ⟨rfl, rfl⟩ := pure_eq_some_iff.mp e
  exact ⟨h, hc⟩

theorem bind (hp : Carries I p P) (hq : ∀ a, P a → Carries I (q a) Q) :
    Carries I (p >>= q) Q := by
  intro c b c'' hc e
  obtain ⟨a, c', ha, hb⟩ := bind_eq_some_iff.mp e
  obtain ⟨hP, hc'⟩ := hp c a c' hc ha
  exact hq a hP c' b c'' hc' hb

theorem map {f : α → β} (h : Carries I p fun a => Q (f a)) : Carries I (f <$> p) Q := by
  intro c b c' hc e
  obtain ⟨a, ha, rfl⟩ := map_eq_some_iff.mp e
  exact h c a c' hc ha

theorem orElse {p' : Parser α} (hp : Carries I p P) (hp' : Carries I p' P) :
    Carries I (p <|> p') P := by
  intro c a c' hc e
  exact (orElse_eq_some e).elim (hp c a c' hc) (hp' c a c' hc)

theorem firstOf {ps : List (Parser α)} (h : ∀ p ∈ ps, Carries I p P) :
    Carries I (Parser.firstOf ps) P := by
  intro c a c' hc e
  obtain ⟨p, hp, e⟩ := firstOf_eq_some e
  exact h p hp c a c' hc e

theorem maybe (h : Carries I p P) : Carries I (Parser.maybe p) fun o => ∀ a ∈ o, P a := by
  intro c o c' hc e
  rcases maybe_eq_some e with ⟨a, ha, rfl⟩ | ⟨rfl, rfl⟩
  · obtain ⟨hP, hc'⟩ := h c a c' hc ha
    refine ⟨?_, hc'⟩
    rintro _ ⟨⟩
    exact hP
  · exact ⟨nofun, hc⟩

theorem many (h : Carries I p P) (n : Nat) :
    Carries I (Parser.many p n) fun as => ∀ a ∈ as, P a := by
  induction n with
  | zero => exact pure (List.forall_mem_nil _)
  | succ n ih =>
    exact .orElse (h.bind fun a ha => ih.bind fun as has =>
      pure (List.forall_mem_cons.mpr ⟨ha, has⟩)) (pure (List.forall_mem_nil _))

end Carries

def Yields (p : Parser α) (P : α → Prop) : Prop := ∀ c a c', p c = some (a, c') → P a

theorem Yields.carries (h : Yields p P) : Carries (fun _ => True) p P :=
  fun c a c' _ e => ⟨h c a c' e, trivial⟩

theorem Carries.yields (h : Carries (fun _ => True) p P) : Yields p P :=
  fun c a c' e => (h c a c' trivial e).1

namespace Yields

theorem pure {a : α} (h : P a) : Yields (pure a) P := (Carries.pure h).yields

theorem bind (hp : Yields p P) (hq : ∀ a, P a → Yields (q a) Q) : Yields (p >>= q) Q :=
  (hp.carries.bind fun a ha => (hq a ha).carries).yields

theorem skip (hq : ∀ a, Yields (q a) Q) : Yields (p >>= q) Q := by
  intro c b c'' e
  obtain ⟨a, c', _, hb⟩ := bind_eq_some_iff.mp e
  exact hq a c' b c'' hb

theorem spaced (h : Yields p P) : Yields (Parser.spaced p) P := skip fun _ => h

theorem map {f : α → β} (h : Yields p fun a => Q (f a)) : Yields (f <$> p) Q := h.carries.map.yields

theorem orElse {p' : Parser α} (hp : Yields p P) (hp' : Yields p' P) : Yields (p <|> p') P :=
  (hp.carries.orElse hp'.carries).yields

theorem firstOf {ps : List (Parser α)} (h : ∀ p ∈ ps, Yields p P) :
    Yields (Parser.firstOf ps) P := (Carries.firstOf fun p hp => (h p hp).carries).yields

theorem maybe (h : Yields p P) : Yields (Parser.maybe p) fun o => ∀ a ∈ o, P a :=
  h.carries.maybe.yields

theorem many (h : Yields p P) (n : Nat) : Yields (Parser.many p n) fun as => ∀ a ∈ as, P a :=
  (h.carries.many n).yields

end Yields

end Parser

namespace Stmt

def AllVars (P : VarDecl → Prop) (s : Stmt) : Prop := ∀ d, .decl d ∈ s.preorder → P d

theorem allVars_of_children {P : VarDecl → Prop} {s : Stmt} (hs : ∀ d, s ≠ .decl d)
    (h : ∀ t ∈ s.children, t.AllVars P) : s.AllVars P := by
  intro d hd
  rw [preorder_eq] at hd
  obtain hd | hd := List.mem_cons.mp hd
  · exact absurd hd.symm (hs d)
  · obtain ⟨t, ht, hd⟩ := List.mem_flatMap.mp hd
    exact h t ht d hd

theorem AllVars.child {P : VarDecl → Prop} {s t : Stmt} (h : s.AllVars P) (ht : t ∈ s.children) :
    t.AllVars P := by
  intro d hd
  refine h d ?_
  rw [preorder_eq]
  exact .tail _ (List.mem_flatMap_of_mem ht hd)

end Stmt

namespace Parser

section Statements

variable {P : VarDecl → Prop} {n : Nat} {inner : Parser Stmt}

theorem yields_declStmt (hvar : Yields (variableDecl n) P) :
    Yields (declStmt n) (Stmt.AllVars P) := by
  refine hvar.bind fun d hd => .pure ?_
  intro d' hd'
  obtain rfl := Stmt.decl.inj (List.mem_singleton.mp hd')
  exact hd

theorem yields_whole {s : Stmt} (hs : ∀ d, s ≠ .decl d) (h : ∀ t ∈ s.children, t.AllVars P) :
    Yields (pure s) (Stmt.AllVars P) := .pure (Stmt.allVars_of_children hs h)

theorem yields_exprStmt : Yields (exprStmt n) (Stmt.AllVars P) :=
  .skip fun _ => .skip fun _ => .skip fun _ => yields_whole nofun nofun

theorem yields_loopInit (hvar : Yields (variableDecl n) P) :
    Yields (loopInit n) fun o => ∀ s ∈ o, s.AllVars P := by
  have hsome {p : Parser Stmt} (h : Yields p (Stmt.AllVars P)) :
      Yields (some <$> p) fun o => ∀ s ∈ o, s.AllVars P := by
    intro c o c' e
    obtain ⟨s, hs, rfl⟩ := map_eq_some_iff.mp e
    rintro _ ⟨⟩
    exact h c s c' hs
  have hnone : Yields (nullStmt *> pure none) fun o : Option Stmt => ∀ s ∈ o, s.AllVars P :=
    .skip fun _ => .pure nofun
  refine .firstOf fun p hp => ?_
  simp only [List.mem_cons, List.not_mem_nil, or_false] at hp
  obtain rfl | rfl | rfl := hp
  · exact hsome (yields_declStmt hvar)
  · exact hsome yields_exprStmt
  · exact hnone

variable (h : Yields inner (Stmt.AllVars P))
include h

theorem yields_compoundStmt : Yields (compoundStmt n inner) (Stmt.AllVars P) := by
  have hone : Yields (inner <* layout) (Stmt.AllVars P) :=
    h.bind fun s hs => .skip fun _ => .pure hs
  exact .skip fun _ => .skip fun _ => .skip fun _ => (hone.many n).bind fun body hbody =>
    .skip fun _ => yields_whole nofun hbody

theorem yields_ifStmt : Yields (ifStmt n inner) (Stmt.AllVars P) := by
  have helse : Yields (Parser.maybe do
      Parser.spaced (keyword "else")
      Parser.spaced inner) fun o => ∀ s ∈ o, s.AllVars P :=
    .maybe (.skip fun _ => h.spaced)
  refine .skip fun _ => .skip fun _ => .skip fun _ => h.spaced.bind fun yes hyes =>
    helse.bind fun no hno => yields_whole nofun (List.forall_mem_cons.mpr ⟨hyes, ?_⟩)
  exact fun t ht => hno t (Option.mem_toList.mp ht)

theorem yields_conditionStmt {word : String} {make : Expr → Stmt → Loc → Stmt}
    (hmake : ∀ c body l d, make c body l ≠ .decl d)
    (hchildren : ∀ c body l, (make c body l).children = [body]) :
    Yields (conditionStmt n inner word make) (Stmt.AllVars P) := by
  refine .skip fun l => .skip fun _ => .skip fun c => h.spaced.bind fun body hbody =>
    yields_whole (hmake c body l) ?_
  rw [hchildren]
  exact List.forall_mem_singleton.mpr hbody

theorem yields_forStmt (hvar : Yields (variableDecl n) P) :
    Yields (forStmt n inner) (Stmt.AllVars P) := by
  refine .skip fun _ => .skip fun _ => .skip fun _ =>
    (yields_loopInit hvar).spaced.bind fun init hinit => .skip fun _ => .skip fun _ =>
      .skip fun _ => .skip fun _ => h.spaced.bind fun body hbody => yields_whole nofun ?_
  exact List.forall_mem_append.mpr ⟨fun t ht => hinit t (Option.mem_toList.mp ht),
    List.forall_mem_singleton.mpr hbody⟩

theorem yields_stmtWith (hvar : Yields (variableDecl n) P) :
    Yields (stmtWith n inner) (Stmt.AllVars P) := by
  have hone {s : Stmt} (hs : s.AllVars P) : ∀ t ∈ [s], t.AllVars P :=
    List.forall_mem_singleton.mpr hs
  refine .firstOf fun p hp => ?_
  simp only [List.mem_cons, List.not_mem_nil, or_false] at hp
  -- One case for each form of a statement, in the order in which they are tried.
  obtain rfl | rfl | rfl | rfl | rfl | rfl | rfl | rfl | rfl | rfl | rfl | rfl | rfl | rfl | rfl |
    rfl := hp
  · exact .skip fun _ => h.spaced.bind fun sub hsub => yields_whole nofun (hone hsub)
  · exact .skip fun _ => .skip fun _ => .skip fun _ => .skip fun _ =>
      h.spaced.bind fun sub hsub => yields_whole nofun (hone hsub)
  · exact .skip fun _ => .skip fun _ => .skip fun _ =>
      h.spaced.bind fun sub hsub => yields_whole nofun (hone hsub)
  · exact yields_compoundStmt h
  · exact yields_ifStmt h
  · exact yields_conditionStmt h (fun _ _ _ _ => nofun) fun _ _ _ => rfl
  · exact yields_conditionStmt h (fun _ _ _ _ => nofun) fun _ _ _ => rfl
  · exact .skip fun _ => .skip fun _ => h.spaced.bind fun body hbody => .skip fun _ =>
      .skip fun _ => .skip fun _ => yields_whole nofun (hone hbody)
  · exact .skip fun _ => .skip fun _ => .skip fun _ => .skip fun _ => .skip fun _ => .skip fun _ =>
      .skip fun _ => .skip fun _ => h.spaced.bind fun body hbody => yields_whole nofun (hone hbody)
  · exact yields_forStmt h hvar
  · exact .skip fun _ => .skip fun _ => .skip fun _ => yields_whole nofun nofun
  · exact .skip fun _ => .skip fun _ => .skip fun _ => yields_whole nofun nofun
  · exact .skip fun _ => .skip fun _ => .skip fun _ => .skip fun _ => yields_whole nofun nofun
  · exact yields_declStmt hvar
  · exact .skip fun _ => .skip fun _ => yields_whole nofun nofun
  · exact yields_exprStmt

end Statements

theorem yields_stmt {P : VarDecl → Prop} (hvar : ∀ n, Yields (variableDecl n) P) (n : Nat) :
    Yields (stmt n) (Stmt.AllVars P) := by
  induction n with
  | zero => exact fun _ _ _ => nofun
  | succ n ih => exact yields_stmtWith ih (hvar (n + 1))

theorem yields_function {P : VarDecl → Prop} (hvar : ∀ n, Yields (variableDecl n) P) (n : Nat) :
    Yields (function n) fun f => f.body.AllVars P := by
  intro c f c' e
  obtain ⟨d, _, hbody⟩ := body_of_function e
  exact yields_compoundStmt (yields_stmt hvar n) d f.body c' hbody

end Parser

def TopLevel.AllVars (P : VarDecl → Prop) : TopLevel → Prop
  | function f => f.body.AllVars P
  | global d => P d

structure SourceUnit.AllVars (P : VarDecl → Prop) (u : SourceUnit) : Prop where
  globals : ∀ d ∈ u.globals, P d
  functions : ∀ f ∈ u.functions, f.body.AllVars P

theorem allVars_of_parse {P : VarDecl → Prop} (hvar : ∀ n, Parser.Yields (Parser.variableDecl n) P)
    {file text : String} {u : SourceUnit} (h : parse file text = .ok u) : u.AllVars P := by
  obtain ⟨items, c, hitems, _, rfl⟩ := exists_items_of_parse h
  have hitem (n : Nat) : Parser.Yields (Parser.topLevel n) (TopLevel.AllVars P) :=
    .orElse (.map (Parser.yields_function hvar n)) (.map (hvar n))
  have hround (n : Nat) :
      Parser.Yields (Parser.topLevel n <* Parser.layout) (TopLevel.AllVars P) :=
    (hitem n).bind fun _ h => .skip fun _ => .pure h
  have hall : ∀ item ∈ items, item.AllVars P :=
    (Parser.Yields.skip fun _ => (hround _).many _) _ items c hitems
  constructor
  · intro d hd
    obtain ⟨item, hmem, hglobal⟩ := List.mem_filterMap.mp hd
    cases item with
    | function f => cases hglobal
    | global d' =>
      obtain rfl := Option.some.inj hglobal
      exact hall _ hmem
  · intro f hf
    obtain ⟨item, hmem, hfunction⟩ := List.mem_filterMap.mp hf
    cases item with
    | function f' =>
      obtain rfl := Option.some.inj hfunction
      exact hall _ hmem
    | global d => cases hfunction

def VarDecl.SaysConst (d : VarDecl) : Prop :=
  d.isConst = true ↔ "const ".toList <+: d.typeName.toList

namespace Parser

theorem not_const_of_mem {s t : String} (hs : s ∈ ["unsigned ", "signed "] ++ baseTypes) :
    ¬ "const ".toList <+: (s ++ t).toList := by
  have hall : ∀ s ∈ ["unsigned ", "signed "] ++ baseTypes, 2 ≤ s.toList.length ∧
      s.toList.take 2 ≠ "const ".toList.take 2 := by
    decide
  obtain ⟨hlength, hne⟩ := hall s hs
  rintro ⟨u, hu⟩
  have htake := congrArg (List.take 2) hu
  rw [String.toList_append, List.take_append_of_le_length hlength,
    List.take_append_of_le_length (by decide)] at htake
  exact hne htake.symm

theorem yields_oneWordOf (words : List String) : Yields (oneWordOf words) (· ∈ words) := by
  refine .firstOf fun p hp => ?_
  obtain ⟨s, hs, rfl⟩ := List.mem_map.mp hp
  exact .skip fun _ => .pure hs

theorem yields_wordAndBlank (s : String) : Yields (wordAndBlank s) (· = s ++ " ") :=
  .skip fun _ => .skip fun _ => .pure rfl

theorem yields_typeName (n : Nat) : Yields (typeName n) fun t =>
    t.isConst = true ↔ "const ".toList <+: t.text.toList := by
  have hsign : Yields (firstOf [wordAndBlank "unsigned", wordAndBlank "signed"])
      (· ∈ ["unsigned ", "signed "]) := by
    have hword (s : String) (hs : s ++ " " ∈ ["unsigned ", "signed "]) :
        Yields (wordAndBlank s) (· ∈ ["unsigned ", "signed "]) :=
      fun c t c' e => yields_wordAndBlank s c t c' e ▸ hs
    exact .orElse (hword _ (by decide)) (.orElse (hword _ (by decide)) fun _ _ _ => nofun)
  have hbase : Yields (firstOf [do return (← firstOf [wordAndBlank "unsigned",
      wordAndBlank "signed"]) ++ (← oneWordOf baseTypes), oneWordOf baseTypes]) fun base =>
      ∀ t, ¬ "const ".toList <+: (base ++ t).toList := by
    refine .orElse (hsign.bind fun sign hs => .skip fun base => .pure fun t => ?_)
      (.orElse (fun c base c' e t => ?_) fun _ _ _ => nofun)
    · rw [String.append_assoc]
      exact not_const_of_mem (List.mem_append_left _ hs)
    · exact not_const_of_mem (List.mem_append_right _ (yields_oneWordOf _ c base c' e))
  refine Yields.bind (yields_wordAndBlank "const").maybe fun const hconst =>
    hbase.bind fun base hbase => .skip fun marks => .pure ?_
  cases const with
  | none =>
    have htext : (none : Option String).getD "" ++ base ++ String.join marks =
        base ++ String.join marks := by
      simp
    rw [htext]
    exact iff_of_false Bool.false_ne_true (hbase _)
  | some s =>
    obtain rfl := hconst s rfl
    have htext : "const" ++ " " ++ base ++ String.join marks =
        "const " ++ (base ++ String.join marks) := String.append_assoc
    refine iff_of_true rfl ⟨(base ++ String.join marks).toList, ?_⟩
    rw [Option.getD_some, htext]
    exact String.toList_append.symm

theorem yields_variableDecl (n : Nat) : Yields (variableDecl n) VarDecl.SaysConst :=
  .skip fun _ => (yields_typeName n).bind fun _ htype => .skip fun _ => .skip fun _ =>
    .skip fun _ => .skip fun _ => .pure htype

end Parser

end AttrCheck
