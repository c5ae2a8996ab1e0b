import AttrCheck.Proofs.Site
import AttrCheck.Proofs.Traversal

/-! A resolution without its checker. The scopes behind a statement, the sites inside it and the
statement that replaces it are functions of the statement and its setting; resolving computes them,
and never fails where every loop hint names its option. -/

namespace AttrCheck

namespace Stmt

def scopesAfter (scopes : Scopes) : Stmt → Scopes
  | decl d => scopes.declareVar d
  | ifElse _ yes none _ => yes.scopesAfter scopes
  | ifElse _ yes (some no) _ => no.scopesAfter (yes.scopesAfter scopes)
  | switch _ sub _ | caseLabel _ sub _ | defaultLabel sub _ | whileLoop _ sub _ | doWhile sub _ _
  | attributed _ sub _ _ | annotated _ sub _ _ => sub.scopesAfter scopes
  | null _ | compound _ _ | expr _ _ | ret _ _ | brk _ | cont _ | forLoop _ _ _ _ _
  | rangeFor _ _ _ _ _ => scopes

end Stmt

namespace Setting

def after (st : Setting) (s : Stmt) : Setting := { st with scopes := s.scopesAfter st.scopes }

end Setting

namespace Stmt

mutual

def resolved (st : Setting) : Stmt → Stmt
  | compound body l => compound (resolvedAll (st.enter []) body) l
  | ifElse c yes none l => ifElse c (yes.resolved st) none l
  | ifElse c yes (some no) l => ifElse c (yes.resolved st) (some (no.resolved (st.after yes))) l
  | switch c body l => switch c (body.resolved st.enterSwitch) l
  | caseLabel value sub l => caseLabel value (sub.resolved st) l
  | defaultLabel sub l => defaultLabel (sub.resolved st) l
  | forLoop none c step body l => forLoop none c step (body.resolved (st.enter [])) l
  | forLoop (some init) c step body l =>
    forLoop (some (init.resolved (st.enter []))) c step
      (body.resolved ((st.enter []).after init)) l
  | rangeFor var range body typeName l =>
    rangeFor var range (body.resolved (st.enter [(var, .runtime)])) typeName l
  | whileLoop c body l => whileLoop c (body.resolved st) l
  | doWhile body c l => doWhile (body.resolved st) c l
  | attributed attrs sub range l => attributed attrs (sub.resolved st) range l
  | annotated attrs sub range _ =>
    (sub.resolved st).withAttrs
      (Site.kept ⟨attrs, range, (sub.resolved st).target, st.after sub⟩) range
  | s => s

def resolvedAll (st : Setting) : List Stmt → List Stmt
  | [] => []
  | s :: ss => s.resolved st :: resolvedAll (st.after s) ss

end

mutual

def sites (st : Setting) : Stmt → List Site
  | compound body _ => sitesAll (st.enter []) body
  | ifElse _ yes none _ => yes.sites st
  | ifElse _ yes (some no) _ => yes.sites st ++ no.sites (st.after yes)
  | switch _ body _ => body.sites st.enterSwitch
  | forLoop none _ _ body _ => body.sites (st.enter [])
  | forLoop (some init) _ _ body _ =>
    init.sites (st.enter []) ++ body.sites ((st.enter []).after init)
  | rangeFor var _ body _ _ => body.sites (st.enter [(var, .runtime)])
  | caseLabel _ sub _ | defaultLabel sub _ | whileLoop _ sub _ | doWhile sub _ _
  | attributed _ sub _ _ => sub.sites st
  | annotated attrs sub range _ =>
    sub.sites st ++ [⟨attrs, range, (sub.resolved st).target, st.after sub⟩]
  | null _ | expr _ _ | decl _ | ret _ _ | brk _ | cont _ => []

def sitesAll (st : Setting) : List Stmt → List Site
  | [] => []
  | s :: ss => s.sites st ++ sitesAll (st.after s) ss

end

def afterAll (st : Setting) (ss : List Stmt) : Setting := ss.foldl Setting.after st

theorem scopesAfter_cons (s : Stmt) (scope : Scope) (outer : Scopes) :
    ∃ scope', s.scopesAfter (scope :: outer) = scope' :: outer := by
  induction s using childInduction generalizing scope with
  | h s ih =>
    cases s with
    | decl d => exact ⟨_, rfl⟩
    | ifElse c yes no l =>
      obtain ⟨scope', hyes⟩ := ih yes (.head _) scope
      cases no with
      | none => exact ⟨scope', by rw [scopesAfter, hyes]⟩
      | some no =>
        obtain ⟨scope'', hno⟩ := ih no (by simp [children]) scope'
        exact ⟨scope'', by rw [scopesAfter, hyes, hno]⟩
    | null | compound | expr | ret | brk | cont | forLoop | rangeFor => exact ⟨scope, rfl⟩
    | switch | caseLabel | defaultLabel | whileLoop | doWhile | attributed | annotated =>
      exact ih _ (.head _) scope

theorem tail_afterAll (ss : List Stmt) (st : Setting) (scope : Scope) :
    (afterAll (st.enter scope) ss).scopes.tail = st.scopes := by
  induction ss generalizing scope with
  | nil => rfl
  | cons s ss ih =>
    obtain ⟨scope', h⟩ := s.scopesAfter_cons scope st.scopes
    have hs : (st.enter scope).after s = st.enter scope' := by
      simp only [Setting.after, Setting.enter, h]
    rw [afterAll, List.foldl_cons, hs]
    exact ih scope'

def written : Stmt → List RawAttr
  | annotated attrs _ _ _ => attrs
  | _ => []

def NamesOptions (s : Stmt) : Prop := ∀ t ∈ s.preorder, ∀ a ∈ t.written, a.NamesOption

theorem NamesOptions.of_mem {s t : Stmt} (h : s.NamesOptions) (ht : t ∈ s.children) :
    t.NamesOptions := by
  intro u hu
  refine h u ?_
  rw [preorder_eq]
  exact .tail _ (List.mem_flatMap_of_mem ht hu)

theorem NamesOptions.written {s : Stmt} (h : s.NamesOptions) : ∀ a ∈ s.written, a.NamesOption :=
  h s (by rw [preorder_eq]; exact .head _)

end Stmt

namespace Resolver

def setting (r : Resolver) : Setting :=
  ⟨r.checker.config.strictLoopOptions, r.checker.inSwitch, r.scopes⟩

def settled (r : Resolver) (scopes : Scopes) (sites : List Site) : Resolver :=
  ⟨r.checker.hear (sites.flatMap Site.events) (sites.flatMap Site.reports), scopes,
    r.attributes ++ sites.flatMap Site.kept⟩

theorem settled_nil (r : Resolver) (scopes : Scopes) :
    r.settled scopes [] = { r with scopes } := by
  simp [settled, Checker.hear_nil]

theorem settled_settled (r : Resolver) (scopes scopes' : Scopes) (sites sites' : List Site) :
    (r.settled scopes sites).settled scopes' sites' = r.settled scopes' (sites ++ sites') := by
  simp [settled, Checker.hear_hear]

theorem settle_eq (r : Resolver) (sub : Stmt) (attrs : List RawAttr) (range : Range)
    (h : ∀ a ∈ attrs, a.NamesOption) : r.settle sub attrs range =
      .ok (sub.withAttrs (Site.kept ⟨attrs, range, sub.target, r.setting⟩) range,
        r.settled r.scopes [⟨attrs, range, sub.target, r.setting⟩]) := by
  have hp := Checker.process_eq ⟨attrs, range, sub.target, r.setting⟩ h r.checker rfl rfl
  change r.checker.process sub.target (attrs.map (RawAttr.bound r.scopes)) range = _ at hp
  rw [settle, hp, settled, List.flatMap_singleton, List.flatMap_singleton, List.flatMap_singleton]

theorem leaveScope_settled (r : Resolver) (scope : Scope) (ss : List Stmt) (sites : List Site) :
    ((r.enterScope scope).settled (Stmt.afterAll (r.setting.enter scope) ss).scopes
      sites).leaveScope = r.settled r.scopes sites := by
  have h := Stmt.tail_afterAll ss r.setting scope
  rw [leaveScope, settled, h]
  rfl

end Resolver

namespace Stmt

/-- How a statement is resolved, whatever the resolver did before. -/
def Resolves (s : Stmt) : Prop := ∀ r : Resolver, r.checker.functions ≠ [] →
  s.resolve r = .ok (s.resolved r.setting, r.settled (s.scopesAfter r.scopes) (s.sites r.setting))

theorem resolveAll_eq (ss : List Stmt) (h : ∀ s ∈ ss, s.Resolves) (r : Resolver)
    (hf : r.checker.functions ≠ []) : resolveAll r ss =
      .ok (resolvedAll r.setting ss, r.settled (afterAll r.setting ss).scopes
        (sitesAll r.setting ss)) := by
  induction ss generalizing r with
  | nil => exact congrArg (fun r' => Except.ok (_, r')) (r.settled_nil r.scopes).symm
  | cons s ss ih =>
    have hs := h s (.head _) r hf
    have hss := ih (fun t ht => h t (.tail _ ht)) (r.settled (s.scopesAfter r.scopes)
      (s.sites r.setting)) hf
    rw [Resolver.settled_settled] at hss
    rw [resolveAll, hs]
    show (resolveAll (r.settled (s.scopesAfter r.scopes) (s.sites r.setting)) ss >>= _) = _
    rw [hss]
    rfl

theorem resolves_compound (body : List Stmt) (l : Loc) (h : ∀ s ∈ body, s.Resolves) :
    (compound body l).Resolves := by
  intro r hf
  have hbody := resolveAll_eq body h (r.enterScope []) hf
  rw [resolve, hbody]
  exact congrArg (fun r' => Except.ok (_, r')) (r.leaveScope_settled [] body _)

theorem resolves_forLoop (init : Option Stmt) (c step : Option Expr) (body : Stmt) (l : Loc)
    (hi : ∀ s ∈ init, s.Resolves) (hb : body.Resolves) :
    (forLoop init c step body l).Resolves := by
  intro r hf
  cases init with
  | none =>
    have hbody := hb (r.enterScope []) hf
    rw [resolve, hbody]
    exact congrArg (fun r' => Except.ok (_, r')) (r.leaveScope_settled [] [body] _)
  | some init =>
    have hinit := hi init rfl (r.enterScope []) hf
    have hbody := hb ((r.enterScope []).settled (init.scopesAfter (r.enterScope []).scopes)
      (init.sites (r.enterScope []).setting)) hf
    rw [Resolver.settled_settled] at hbody
    rw [resolve, hinit]
    show (body.resolve ((r.enterScope []).settled _ _) >>= _) = _
    rw [hbody]
    exact congrArg (fun r' => Except.ok (_, r')) (r.leaveScope_settled [] [init, body] _)

theorem resolves_rangeFor (var : String) (range : Expr) (body : Stmt) (typeName : String) (l : Loc)
    (h : body.Resolves) : (rangeFor var range body typeName l).Resolves := by
  intro r hf
  have hbody := h (r.enterScope [(var, .runtime)]) hf
  rw [resolve, hbody]
  exact congrArg (fun r' => Except.ok (_, r')) (r.leaveScope_settled [(var, .runtime)] [body] _)

theorem resolves_switch (c : Expr) (body : Stmt) (l : Loc) (h : body.Resolves) :
    (switch c body l).Resolves := by
  intro ⟨⟨config, engine, functions, events⟩, scopes, attributes⟩ hf
  obtain ⟨f, fs, rfl⟩ := List.exists_cons_of_ne_nil hf
  have hbody := h ⟨⟨config, engine, { f with switches := l :: f.switches } :: fs, events⟩, scopes,
    attributes⟩ (List.cons_ne_nil _ _)
  rw [resolve]
  -- The body is resolved with one `switch` more on the stack, which is taken off behind it.
  show (body.resolve _ >>= _) = _
  rw [hbody]
  rfl

/-- Resolving succeeds where every loop hint names its option. -/
theorem NamesOptions.resolves {s : Stmt} (h : s.NamesOptions) : s.Resolves := by
  induction s using childInduction with
  | h s ih =>
    have hc : ∀ t ∈ s.children, t.Resolves := fun t ht => ih t ht (h.of_mem ht)
    cases s with
    | null | expr | ret | brk | cont =>
      intro r _
      exact congrArg (fun r' => Except.ok (_, r')) (r.settled_nil r.scopes).symm
    | decl d =>
      intro r _
      exact congrArg (fun r' => Except.ok (_, r')) (r.settled_nil _).symm
    | ifElse c yes no l =>
      intro r hf
      have hyes := hc yes (.head _) r hf
      cases no with
      | none =>
        rw [resolve, hyes]
        rfl
      | some no =>
        have hno := hc no (by simp [children]) (r.settled (yes.scopesAfter r.scopes)
          (yes.sites r.setting)) hf
        rw [Resolver.settled_settled] at hno
        rw [resolve, hyes]
        show (no.resolve (r.settled (yes.scopesAfter r.scopes) (yes.sites r.setting)) >>= _) = _
        rw [hno]
        rfl
    | compound body l => exact resolves_compound body l hc
    | forLoop init c step body l =>
      refine resolves_forLoop init c step body l ?_ (hc body (by simp [children]))
      exact fun t ht => hc t (by simp [children, Option.mem_def.mp ht])
    | rangeFor var range body typeName l =>
      exact resolves_rangeFor var range body typeName l (hc body (.head _))
    | switch c body l => exact resolves_switch c body l (hc body (.head _))
    | annotated attrs sub range l =>
      -- The site is checked last, with the scopes that the statement behind it has left.
      intro r hf
      have hsub := hc sub (.head _) r hf
      have hsettle := Resolver.settle_eq
        (r.settled (sub.scopesAfter r.scopes) (sub.sites r.setting))
        (sub.resolved r.setting) attrs range h.written
      rw [Resolver.settled_settled] at hsettle
      rw [resolve, hsub]
      show Resolver.settle _ _ _ _ = _
      rw [hsettle]
      rfl
    | caseLabel | defaultLabel | whileLoop | doWhile | attributed =>
      intro r hf
      rw [resolve, hc _ (.head _) r hf]
      rfl

end Stmt

namespace Function

def setting (strict : Bool) (globals : Scopes) (f : Function) : Setting :=
  ⟨strict, false, f.scope :: globals⟩

def sites (strict : Bool) (globals : Scopes) (f : Function) : List Site :=
  f.body.sites (f.setting strict globals)

def resolved (strict : Bool) (globals : Scopes) (f : Function) : Function :=
  { f with body := f.body.resolved (f.setting strict globals) }

theorem resolve_eq (f : Function) (h : f.body.NamesOptions) (r : Resolver) :
    f.resolve r = .ok (f.resolved r.setting.strict r.scopes,
      r.settled r.scopes (f.sites r.setting.strict r.scopes)) := by
  have hbody := h.resolves (r.enterFunction f) (List.cons_ne_nil _ _)
  have hleave := r.leaveScope_settled f.scope [f.body] (f.sites r.setting.strict r.scopes)
  rw [resolve, hbody]
  exact congrArg (fun r' : Resolver => Except.ok (f.resolved r.setting.strict r.scopes, r')) hleave

theorem resolveAll_eq (fs : List Function) (h : ∀ f ∈ fs, f.body.NamesOptions) (r : Resolver) :
    resolveAll r fs = .ok (fs.map (resolved r.setting.strict r.scopes),
      r.settled r.scopes (fs.flatMap (sites r.setting.strict r.scopes))) := by
  induction fs generalizing r with
  | nil => exact congrArg (fun r' => Except.ok (_, r')) (r.settled_nil r.scopes).symm
  | cons f fs ih =>
    have hf := f.resolve_eq (h f (.head _)) r
    have hfs := ih (fun g hg => h g (.tail _ hg))
      (r.settled r.scopes (f.sites r.setting.strict r.scopes))
    rw [Resolver.settled_settled] at hfs
    rw [resolveAll, hf]
    show (resolveAll (r.settled r.scopes (f.sites r.setting.strict r.scopes)) fs >>= _) = _
    rw [hfs]
    rfl

end Function

namespace SourceUnit

def scopes (u : SourceUnit) : Scopes := u.globals.foldl Scopes.declareVar [[]]

def sites (strict : Bool) (u : SourceUnit) : List Site :=
  u.functions.flatMap (Function.sites strict u.scopes)

def resolved (strict : Bool) (u : SourceUnit) : SourceUnit :=
  { u with functions := u.functions.map (Function.resolved strict u.scopes) }

theorem foldl_declare (ds : List VarDecl) (r : Resolver) :
    ds.foldl Resolver.declare r = { r with scopes := ds.foldl Scopes.declareVar r.scopes } := by
  induction ds generalizing r with
  | nil => rfl
  | cons d ds ih => rw [List.foldl_cons, ih]; rfl

def checked (config : Config) (u : SourceUnit) : CheckResult :=
  let sites := u.sites config.strictLoopOptions
  let engine := config.engine.reportAll (sites.flatMap Site.reports)
  let attributes := sites.flatMap Site.kept
  ⟨u.resolved config.strictLoopOptions, engine, attributes, sites.flatMap Site.events ++
    [Event.checked u.file attributes.length engine.errorCount engine.warningCount]⟩

theorem check_eq (u : SourceUnit) (h : ∀ f ∈ u.functions, f.body.NamesOptions) (config : Config) :
    u.check config = .ok (u.checked config) := by
  have hr := Function.resolveAll_eq u.functions h
    { Resolver.new config with scopes := u.scopes }
  rw [check, resolve, foldl_declare]
  show (Function.resolveAll { Resolver.new config with scopes := u.scopes } u.functions >>= _)
    >>= _ = _
  rw [hr]
  rfl

end SourceUnit

end AttrCheck
